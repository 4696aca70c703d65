import TradingFleet.SpotDca.Walks

set_option autoImplicit false

/-! # Fills and the reports they come from

The venue reports cumulative quantities, costs and fees; the ledger receives the differences to
the markers of the order. What the ledger received for an order is compared with the last report
on it, and what the ledger holds with everything it received (`Holds`).
-/

namespace TradingFleet.SpotDca

open TradingFleet.Lifecycle TradingFleet.Keyed

/-! ## The postings of one order -/

def Posting.tracks (txid : String) : Posting → Bool
  | .tracked o => o.txid = txid
  | _ => false

def Posting.reportOn (txid : String) : Posting → Option (Order × Report)
  | .report o r => if o.txid = txid then some (o, r) else none
  | _ => none

def Posting.fillOf (txid : String) : Posting → Option Fill
  | .fill f => if f.txid = txid then some f else none
  | _ => none

/-- What happened since the order entered the state, newest first. -/
def lineage (txid : String) (postings : List Posting) : List Posting :=
  postings.takeWhile (fun p => !p.tracks txid)

/-- The reports on the order. -/
def reports (txid : String) (postings : List Posting) : List (Order × Report) :=
  (lineage txid postings).filterMap (Posting.reportOn txid)

/-- The fills the ledger received for the order. -/
def fills (txid : String) (postings : List Posting) : List Fill :=
  (lineage txid postings).filterMap (Posting.fillOf txid)

def appliedVolume (txid : String) (postings : List Posting) : ℚ :=
  ((fills txid postings).map Fill.vol).sum

def appliedTotal (txid : String) (postings : List Posting) : ℚ :=
  ((fills txid postings).map (fun f => f.vol * f.price)).sum

def lastVolume : List (Order × Report) → ℚ
  | [] => 0
  | (_, r) :: _ => r.totalVol

def lastCost : List (Order × Report) → ℚ
  | [] => 0
  | (_, r) :: _ => r.totalCost

/-- The tolerance of the code, once per report. -/
def slack (l : List (Order × Report)) : ℚ := (l.map (fun x => x.1.eps)).sum

section Lineage

variable {txid : String} {ps : List Posting}

theorem reports_tracked {o : Order} (h : o.txid = txid) : reports txid (.tracked o :: ps) = [] := by
  simp [reports, lineage, Posting.tracks, h]

theorem fills_tracked {o : Order} (h : o.txid = txid) : fills txid (.tracked o :: ps) = [] := by
  simp [fills, lineage, Posting.tracks, h]

theorem reports_cons {p : Posting} (h : p.tracks txid = false) :
    reports txid (p :: ps) = (p.reportOn txid).toList ++ reports txid ps := by
  unfold reports lineage
  rw [List.takeWhile_cons_of_pos (by simp [h])]
  cases hp : p.reportOn txid <;> simp [hp]

theorem fills_cons {p : Posting} (h : p.tracks txid = false) :
    fills txid (p :: ps) = (p.fillOf txid).toList ++ fills txid ps := by
  unfold fills lineage
  rw [List.takeWhile_cons_of_pos (by simp [h])]
  cases hp : p.fillOf txid <;> simp [hp]

/-- A posting about another order changes nothing here. -/
def Posting.foreign (txid : String) (p : Posting) : Prop :=
  p.tracks txid = false ∧ p.reportOn txid = none ∧ p.fillOf txid = none

theorem reports_foreign {p : Posting} (h : p.foreign txid) :
    reports txid (p :: ps) = reports txid ps := by
  rw [reports_cons h.1, h.2.1]
  rfl

theorem fills_foreign {p : Posting} (h : p.foreign txid) : fills txid (p :: ps) = fills txid ps := by
  rw [fills_cons h.1, h.2.2]
  rfl

end Lineage

/-! ## What the postings leave in the ledger -/

/-- The position of the ledger, with what the cycle has spent and all sales have realized. -/
structure Holdings where
  qty : ℚ := 0
  cost : ℚ := 0
  spent : ℚ := 0
  gross : ℚ := 0
deriving DecidableEq

def State.holdings (s : State) : Holdings where
  qty := s.qty
  cost := s.cost
  spent := s.spent
  gross := s.realizedGross

/-- The average cost of a unit; without one, the price of the sale. -/
def Holdings.average (h : Holdings) (price : ℚ) : ℚ :=
  if flatQty < h.qty ∧ h.cost / h.qty ≠ 0 then h.cost / h.qty else price

/-- A BUY comes in at what was paid. A SELL takes its share of the cost out and realizes the rest of
what was received. A new cycle begins without a position. -/
def Holdings.post (h : Holdings) : Posting → Holdings
  | .fill f => match f.side with
      | .buy =>
          { h with
            qty := h.qty + f.vol
            cost := h.cost + f.vol * f.price
            spent := h.spent + f.amount }
      | .sell =>
          { h with
            qty := h.qty - f.vol
            cost := max 0 (h.cost - f.vol * h.average f.price)
            gross := h.gross + (f.vol * f.price - f.vol * h.average f.price) }
  | .closed => { gross := h.gross }
  | _ => h

/-- The postings leave these holdings: nothing moves them but a posting, dust that is dropped, and a
position of the account that is taken over while the ledger has none. -/
inductive Holds (S : Setup) : List Posting → Holdings → Prop
  | nothing : Holds S [] {}
  | posted (p : Posting) {ps : List Posting} {h : Holdings} (hold : Holds S ps h) :
      Holds S (p :: ps) (h.post p)
  | dust {ps : List Posting} {h : Holdings} (hold : Holds S ps h)
      (hdust : |h.qty| < S.precision.dust) : Holds S ps { h with qty := 0, cost := 0 }
  | found (qty : ℚ) {ps : List Posting} {h : Holdings} (hold : Holds S ps h)
      (hqty : 0 < qty) (hflat : h.qty ≤ flatQty) (hspent : h.spent ≤ 0) :
      Holds S ps { h with qty := qty, cost := qty * S.params.adoptCost }

/-! ## What is asked of the reports -/

/-- Reports as a venue gives them: the filled quantity never goes back and stays within the
volume of the order. -/
def Orderly (l : List (Order × Report)) : Prop :=
  l.Pairwise (fun x y => y.2.totalVol ≤ x.2.totalVol) ∧ ∀ x ∈ l, x.2.totalVol ≤ x.1.vol

/-- The cost of a report against the cost applied so far: it is larger when the report adds a
quantity, and the same when it does not. -/
def Order.CostFollows (o : Order) (r : Report) : Prop :=
  if o.eps < r.totalVol - o.appliedVol then o.appliedCost < r.totalCost
  else r.totalCost = o.appliedCost

/-- The ledger received what the last report says and holds what it received, and a terminal order
is gone. -/
structure Resolved (S : Setup) (txid : String) (w : World) : Prop where
  held : Holds S w.postings w.s.holdings
  volume_le : appliedVolume txid w.postings ≤ lastVolume (reports txid w.postings)
  volume_ge : lastVolume (reports txid w.postings) ≤
    appliedVolume txid w.postings + slack (reports txid w.postings)
  cost : appliedTotal txid w.postings = lastCost (reports txid w.postings)
  removed : ∀ x ∈ (reports txid w.postings).head?, x.2.terminal = true →
    ∀ o ∈ w.s.orders, o.txid ≠ txid

theorem Orderly.tail {x : Order × Report} {l : List (Order × Report)} (h : Orderly (x :: l)) :
    Orderly l :=
  ⟨(List.pairwise_cons.mp h.1).2, fun y hy => h.2 y (List.mem_cons_of_mem _ hy)⟩

/-! ## One report -/

section Report

variable {o : Order} {r : Report}

theorem Order.eps_nonneg (o : Order) : 0 ≤ o.eps :=
  le_trans (by norm_num) (le_max_left _ _)

theorem Order.eps_pos (o : Order) : 0 < o.eps :=
  lt_of_lt_of_le (by norm_num) (le_max_left _ _)

/-- Such a report is not behind the markers. -/
theorem Order.CostFollows.not_regressed (h : o.CostFollows r) (hvol : o.appliedVol ≤ r.totalVol) :
    o.regressed r = false := by
  have heps := o.eps_nonneg
  have hcost : o.appliedCost ≤ r.totalCost := by
    unfold Order.CostFollows at h
    split at h
    · exact le_of_lt h
    · exact le_of_eq h.symm
  unfold Order.regressed
  rw [Bool.or_eq_false_iff]
  constructor
  · exact decide_eq_false (by linarith)
  · exact decide_eq_false (by linarith)

theorem Order.deltaVol_eq (hvol : o.appliedVol ≤ r.totalVol) :
    o.deltaVol r = r.totalVol - o.appliedVol :=
  max_eq_right (by linarith)

/-- The quantity and the cost of a fill are the differences. -/
theorem Order.fill_cost (hvol : o.appliedVol ≤ r.totalVol) (h : o.CostFollows r)
    (hfill : o.eps < o.deltaVol r) :
    (o.fill r).vol * (o.fill r).price = r.totalCost - o.appliedCost := by
  have hdelta := Order.deltaVol_eq hvol
  have hlt : o.appliedCost < r.totalCost := by
    unfold Order.CostFollows at h
    rw [hdelta] at hfill
    rwa [if_pos hfill] at h
  have hcost : o.deltaCost r = r.totalCost - o.appliedCost := max_eq_right (by linarith)
  have hpos : 0 < o.deltaCost r := by
    rw [hcost]
    linarith
  have hvolume : o.deltaVol r ≠ 0 := ne_of_gt (lt_trans o.eps_pos hfill)
  show o.deltaVol r * (if 0 < o.deltaCost r then o.deltaCost r / o.deltaVol r else r.price o) = _
  rw [if_pos hpos, mul_div_cancel₀ _ hvolume, hcost]

/-- Without a fill the cost is the one applied already. -/
theorem Order.CostFollows.same (hvol : o.appliedVol ≤ r.totalVol) (h : o.CostFollows r)
    (hfill : ¬ o.eps < o.deltaVol r) : r.totalCost = o.appliedCost := by
  unfold Order.CostFollows at h
  rw [Order.deltaVol_eq hvol] at hfill
  rwa [if_neg hfill] at h

end Report

/-! ## The invariant -/

/-- The ledger of one order next to the orders of the state. -/
structure Account (txid : String) (orders : List Order) (ps : List Posting) : Prop where
  volume_le : appliedVolume txid ps ≤ lastVolume (reports txid ps)
  volume_ge : lastVolume (reports txid ps) ≤ appliedVolume txid ps + slack (reports txid ps)
  cost : appliedTotal txid ps = lastCost (reports txid ps)
  removed : ∀ x ∈ (reports txid ps).head?, x.2.terminal = true → ∀ o ∈ orders, o.txid ≠ txid
  marked : ∀ o ∈ orders, o.txid = txid →
    o.appliedVol = lastVolume (reports txid ps) ∧ o.appliedCost = lastCost (reports txid ps)

structure Booked (orders : List Order) (ps : List Posting) : Prop where
  unique : (orders.map Order.txid).Nodup
  account : ∀ txid, Orderly (reports txid ps) → (∀ x ∈ reports txid ps, x.1.CostFollows x.2) →
    Account txid orders ps

theorem Account.congr {txid : String} {orders orders' : List Order} {ps ps' : List Posting}
    (h : Account txid orders ps) (hreports : reports txid ps' = reports txid ps)
    (hfills : fills txid ps' = fills txid ps)
    (horders : ∀ o' ∈ orders', o'.txid = txid → ∃ o ∈ orders, o.txid = txid ∧
      o'.appliedVol = o.appliedVol ∧ o'.appliedCost = o.appliedCost) :
    Account txid orders' ps' := by
  have hvolume : appliedVolume txid ps' = appliedVolume txid ps := by
    unfold appliedVolume
    rw [hfills]
  have htotal : appliedTotal txid ps' = appliedTotal txid ps := by
    unfold appliedTotal
    rw [hfills]
  constructor
  · rw [hvolume, hreports]
    exact h.volume_le
  · rw [hvolume, hreports]
    exact h.volume_ge
  · rw [htotal, hreports]
    exact h.cost
  · intro x hx hterminal o' ho' htxid
    obtain ⟨o, ho, htxid', -⟩ := horders o' ho' htxid
    rw [hreports] at hx
    exact h.removed x hx hterminal o ho htxid'
  · intro o' ho' htxid
    obtain ⟨o, ho, htxid', hvol, hcost⟩ := horders o' ho' htxid
    rw [hreports, hvol, hcost]
    exact h.marked o ho htxid'

/-- Fewer orders, or orders with other notes, under the same postings. -/
theorem Booked.mono {orders orders' : List Order} {ps : List Posting} (h : Booked orders ps)
    (hunique : (orders'.map Order.txid).Nodup)
    (horders : ∀ o' ∈ orders', ∃ o ∈ orders, o'.txid = o.txid ∧
      o'.appliedVol = o.appliedVol ∧ o'.appliedCost = o.appliedCost) : Booked orders' ps := by
  refine ⟨hunique, fun txid horderly hfollows => ?_⟩
  refine (h.account txid horderly hfollows).congr rfl rfl (fun o' ho' htxid => ?_)
  obtain ⟨o, ho, hsame, hmarks⟩ := horders o' ho'
  exact ⟨o, ho, hsame ▸ htxid, hmarks⟩

theorem Booked.cancelled {s : State} {ps : List Posting} (h : Booked s.orders ps) (o : Order) :
    Booked (s.replace o { o with cancelRequested := true }).orders ps := by
  refine h.mono ?_ (fun o' ho' => ?_)
  · show ((updateFirst _ _ s.orders).map Order.txid).Nodup
    rw [replaced_keys (o := o) Order.txid
      (show ({ o with cancelRequested := true } : Order).txid = o.txid from rfl)]
    exact h.unique
  · rcases mem_replaced ho' with ho' | ⟨rfl, ho⟩
    · exact ⟨o', ho', rfl, rfl, rfl⟩
    · exact ⟨o, ho, rfl, rfl, rfl⟩

theorem Booked.dropped {s : State} {ps : List Posting} (h : Booked s.orders ps) (o : Order) :
    Booked (s.remove o).orders ps := by
  have hsub : (s.orders.erase o).Sublist s.orders := List.erase_sublist
  refine h.mono ((hsub.map Order.txid).nodup h.unique) (fun o' ho' => ?_)
  exact ⟨o', hsub.subset ho', rfl, rfl, rfl⟩

theorem Booked.adopted {w : World} (h : Booked w.s.orders w.postings) (p : Intent) :
    Booked (w.adopted p).s.orders (w.adopted p).postings := by
  show Booked (adoptInto w.s.orders p) (if w.s.orders.any (fun o => o.txid = p.orderId.getD "")
    then w.postings else .tracked (orderFromPending p) :: w.postings)
  unfold adoptInto
  by_cases hknown : w.s.orders.any (fun o => o.txid = p.orderId.getD "") = true
  · rw [if_pos hknown, if_pos hknown]
    exact h
  · rw [if_neg hknown, if_neg hknown]
    have hnew : ∀ o ∈ w.s.orders, o.txid ≠ (orderFromPending p).txid := by
      intro o ho htxid
      exact hknown (List.any_eq_true.mpr ⟨o, ho, decide_eq_true htxid⟩)
    refine ⟨?_, fun txid horderly hfollows => ?_⟩
    · rw [List.map_append, List.nodup_append]
      refine ⟨h.unique, List.nodup_singleton _, fun a ha b hb => ?_⟩
      obtain ⟨o, ho, rfl⟩ := List.mem_map.mp ha
      rw [List.map_singleton, List.mem_singleton] at hb
      rw [hb]
      exact hnew o ho
    · by_cases htxid : (orderFromPending p).txid = txid
      · -- nothing was reported on the order since it was tracked
        have hreports : reports txid (.tracked (orderFromPending p) :: w.postings) = [] :=
          reports_tracked htxid
        have hfills : fills txid (.tracked (orderFromPending p) :: w.postings) = [] :=
          fills_tracked htxid
        have horders : ∀ o ∈ w.s.orders ++ [orderFromPending p], o.txid = txid →
            o = orderFromPending p := by
          intro o ho heq
          rcases List.mem_append.mp ho with ho | ho
          · exact absurd (heq.trans htxid.symm) (hnew o ho)
          · exact List.mem_singleton.mp ho
        constructor
        · simp [appliedVolume, hfills, hreports, lastVolume]
        · simp [appliedVolume, hfills, hreports, lastVolume, slack]
        · simp [appliedTotal, hfills, hreports, lastCost]
        · simp [hreports]
        · intro o ho heq
          rw [horders o ho heq, hreports]
          exact ⟨rfl, rfl⟩
      · -- the posting is about another order
        have hforeign : (Posting.tracked (orderFromPending p)).foreign txid :=
          ⟨by simpa [Posting.tracks] using htxid, rfl, rfl⟩
        rw [reports_foreign hforeign] at horderly hfollows
        refine (h.account txid horderly hfollows).congr (reports_foreign hforeign)
          (fills_foreign hforeign) (fun o ho heq => ?_)
        rcases List.mem_append.mp ho with ho | ho
        · exact ⟨o, ho, heq, rfl, rfl⟩
        · rw [List.mem_singleton.mp ho] at heq
          exact absurd heq htxid

/-! ### A report -/

section Reported

variable {o : Order} {r : Report} {ps : List Posting} {txid : String}

/-- What a report adds to the postings. -/
def entered (o : Order) (r : Report) (ps : List Posting) : List Posting :=
  (if o.eps < o.deltaVol r then [.fill (o.fill r)] else []) ++ .report o r :: ps

theorem reports_entered : reports o.txid (entered o r ps) = (o, r) :: reports o.txid ps := by
  have hreport : reports o.txid (.report o r :: ps) = (o, r) :: reports o.txid ps := by
    rw [reports_cons rfl]
    simp [Posting.reportOn]
  unfold entered
  split
  · rw [List.singleton_append, reports_cons rfl, hreport]
    rfl
  · exact hreport

theorem fills_entered : fills o.txid (entered o r ps) =
    (if o.eps < o.deltaVol r then [o.fill r] else []) ++ fills o.txid ps := by
  have hreport : fills o.txid (.report o r :: ps) = fills o.txid ps := by
    rw [fills_cons rfl]
    rfl
  unfold entered
  split
  · rw [List.singleton_append, fills_cons rfl, hreport]
    simp [Posting.fillOf, Order.fill]
  · exact hreport

theorem entered_foreign (h : o.txid ≠ txid) :
    reports txid (entered o r ps) = reports txid ps ∧
      fills txid (entered o r ps) = fills txid ps := by
  have hreport : (Posting.report o r).foreign txid := ⟨rfl, by simp [Posting.reportOn, h], rfl⟩
  have hfill : (Posting.fill (o.fill r)).foreign txid :=
    ⟨rfl, rfl, by simp [Posting.fillOf, Order.fill, h]⟩
  unfold entered
  split
  · rw [List.singleton_append, reports_foreign hfill, fills_foreign hfill,
      reports_foreign hreport, fills_foreign hreport]
    exact ⟨rfl, rfl⟩
  · exact ⟨reports_foreign hreport, fills_foreign hreport⟩

/-- The last report is not ahead of the next one. -/
theorem Orderly.last_le {x : Order × Report} {l : List (Order × Report)} (h : Orderly (x :: l))
    (hx : 0 ≤ x.2.totalVol) : lastVolume l ≤ x.2.totalVol := by
  cases l with
  | nil => exact hx
  | cons y l => exact (List.pairwise_cons.mp h.1).1 y List.mem_cons_self

/-- The totals of an order after a report: the differences telescope. -/
theorem Account.entered {orders orders' : List Order} (h : Account o.txid orders ps)
    (ho : o ∈ orders) (hvol : o.appliedVol ≤ r.totalVol) (hfollows : o.CostFollows r)
    (horders : ∀ o' ∈ orders', o'.txid = o.txid → o' = o.marked r ∧ r.terminal = false) :
    Account o.txid orders' (entered o r ps) := by
  obtain ⟨hlastVol, hlastCost⟩ := h.marked o ho rfl
  have hle := h.volume_le
  have hge := h.volume_ge
  have hcost := h.cost
  have heps := o.eps_nonneg
  rw [← hlastVol] at hle hge
  rw [← hlastCost] at hcost
  have hslack : slack ((o, r) :: reports o.txid ps) = o.eps + slack (reports o.txid ps) := by
    simp [slack]
  -- what the report adds to the totals
  have hadds : appliedVolume o.txid (TradingFleet.SpotDca.entered o r ps) ≤ r.totalVol ∧
      r.totalVol ≤ appliedVolume o.txid (TradingFleet.SpotDca.entered o r ps) + o.eps +
        slack (reports o.txid ps) ∧
      appliedTotal o.txid (TradingFleet.SpotDca.entered o r ps) = r.totalCost := by
    unfold appliedVolume at hle hge ⊢
    unfold appliedTotal at hcost ⊢
    rw [fills_entered]
    by_cases hfill : o.eps < o.deltaVol r
    · have hv : (o.fill r).vol = r.totalVol - o.appliedVol := Order.deltaVol_eq hvol
      have hc := Order.fill_cost hvol hfollows hfill
      simp only [if_pos hfill, List.singleton_append, List.map_cons, List.sum_cons]
      rw [hc, hcost, hv]
      refine ⟨?_, ?_, ?_⟩ <;> linarith
    · have hsame := hfollows.same hvol hfill
      have hsmall : r.totalVol - o.appliedVol ≤ o.eps := by
        rw [Order.deltaVol_eq hvol] at hfill
        exact not_lt.mp hfill
      simp only [if_neg hfill, List.nil_append]
      rw [hcost, hsame]
      refine ⟨?_, ?_, ?_⟩ <;> linarith
  constructor
  · rw [reports_entered]
    exact hadds.1
  · rw [reports_entered, hslack]
    show r.totalVol ≤ _
    linarith [hadds.2.1]
  · rw [reports_entered]
    exact hadds.2.2
  · intro x hx hterminal o' ho' htxid
    rw [reports_entered, List.head?_cons, Option.mem_some_iff] at hx
    rw [← hx] at hterminal
    rw [(horders o' ho' htxid).2] at hterminal
    cases hterminal
  · intro o' ho' htxid
    rw [reports_entered, (horders o' ho' htxid).1]
    exact ⟨rfl, rfl⟩

theorem State.accounted_orders (s : State) (o : Order) (r : Report) :
    (s.accounted o r).orders = s.orders := by
  unfold State.accounted State.filled
  split
  · cases (o.fill r).side <;> rfl
  split
  · rfl
  · rfl

/-- After a report its order has the new markers, or is gone; the others are as they were. -/
theorem mem_reported {s : State} (hunique : (s.orders.map Order.txid).Nodup) (ho : o ∈ s.orders) :
    ((s.reported o r).orders.map Order.txid).Nodup ∧
      ∀ o' ∈ (s.reported o r).orders, (o'.txid = o.txid → o' = o.marked r ∧ r.terminal = false) ∧
        (o'.txid ≠ o.txid → o' ∈ s.orders) := by
  let replaced := updateFirst (fun x => x = o) (fun _ => o.marked r) s.orders
  have hkeys : (replaced.map Order.txid).Nodup := by
    rw [replaced_keys (o := o) Order.txid (show (o.marked r).txid = o.txid from rfl)]
    exact hunique
  have hmarked : o.marked r ∈ replaced := replaced_mem ho
  have hsame : ∀ o' ∈ replaced, o'.txid = o.txid → o' = o.marked r :=
    fun o' ho' htxid => eq_of_key_eq hkeys ho' hmarked htxid
  have hother : ∀ o' ∈ replaced, o'.txid ≠ o.txid → o' ∈ s.orders := by
    intro o' ho' htxid
    rcases mem_replaced ho' with ho' | ⟨rfl, -⟩
    · exact ho'
    · exact absurd rfl htxid
  unfold State.reported
  rw [State.accounted_orders]
  by_cases hterminal : r.terminal = true
  · simp only [hterminal, if_true]
    have hnodup : replaced.Nodup := List.Nodup.of_map _ hkeys
    show ((replaced.erase (o.marked r)).map Order.txid).Nodup ∧
      ∀ o' ∈ replaced.erase (o.marked r), _
    refine ⟨(List.erase_sublist.map Order.txid).nodup hkeys, fun o' ho' => ?_⟩
    rw [hnodup.mem_erase_iff] at ho'
    exact ⟨fun htxid => absurd (hsame o' ho'.2 htxid) ho'.1, hother o' ho'.2⟩
  · simp only [hterminal, Bool.false_eq_true, if_false]
    show (replaced.map Order.txid).Nodup ∧ ∀ o' ∈ replaced, _
    refine ⟨hkeys, fun o' ho' => ⟨fun htxid => ⟨hsame o' ho' htxid, ?_⟩, hother o' ho'⟩⟩
    simp

theorem Booked.reported {s : State} (h : Booked s.orders ps) (ho : o ∈ s.orders)
    (hr : 0 ≤ r.totalVol) : Booked (s.reported o r).orders (entered o r ps) := by
  obtain ⟨hunique, hmem⟩ := mem_reported (r := r) h.unique ho
  refine ⟨hunique, fun txid horderly hfollows => ?_⟩
  by_cases htxid : o.txid = txid
  · subst htxid
    rw [reports_entered] at horderly hfollows
    have haccount := h.account o.txid horderly.tail
      (fun x hx => hfollows x (List.mem_cons_of_mem _ hx))
    have hvol : o.appliedVol ≤ r.totalVol := by
      rw [(haccount.marked o ho rfl).1]
      exact horderly.last_le hr
    exact haccount.entered ho hvol (hfollows (o, r) List.mem_cons_self)
      (fun o' ho' => (hmem o' ho').1)
  · have hreports : reports txid (entered o r ps) = reports txid ps := (entered_foreign htxid).1
    have hfills : fills txid (entered o r ps) = fills txid ps := (entered_foreign htxid).2
    rw [hreports] at horderly hfollows
    refine (h.account txid horderly hfollows).congr hreports hfills (fun o' ho' heq => ?_)
    exact ⟨o', (hmem o' ho').2 (fun h' => htxid (h'.symm.trans heq)), heq, rfl, rfl⟩

/-- A report that is behind the markers meets the condition for no order. -/
theorem Booked.ignored {orders : List Order} (h : Booked orders ps) (ho : o ∈ orders)
    (hr : 0 ≤ r.totalVol) (hbehind : o.regressed r = true) :
    Booked orders (.report o r :: ps) := by
  refine ⟨h.unique, fun txid horderly hfollows => ?_⟩
  by_cases htxid : o.txid = txid
  · subst htxid
    have hreports : reports o.txid (.report o r :: ps) = (o, r) :: reports o.txid ps := by
      rw [reports_cons rfl]
      simp [Posting.reportOn]
    rw [hreports] at horderly hfollows
    have haccount := h.account o.txid horderly.tail
      (fun x hx => hfollows x (List.mem_cons_of_mem _ hx))
    have hvol : o.appliedVol ≤ r.totalVol := by
      rw [(haccount.marked o ho rfl).1]
      exact horderly.last_le hr
    have hahead := (hfollows (o, r) List.mem_cons_self).not_regressed hvol
    rw [hbehind] at hahead
    cases hahead
  · have hforeign : (Posting.report o r).foreign txid :=
      ⟨rfl, by simp [Posting.reportOn, htxid], rfl⟩
    rw [reports_foreign hforeign] at horderly hfollows
    exact (h.account txid horderly hfollows).congr (reports_foreign hforeign)
      (fills_foreign hforeign) (fun o' ho' heq => ⟨o', ho', heq, rfl, rfl⟩)

end Reported

/-! ## Every run -/

/-- The postings fit the orders in memory and on disk. -/
def World.Booked (w : World) : Prop :=
  TradingFleet.SpotDca.Booked w.s.orders w.postings ∧
    TradingFleet.SpotDca.Booked w.saved.orders w.savedPostings

theorem SameCore.orders {s s' : State} (h : SameCore s s') : s'.orders = s.orders := by
  rw [h]

theorem Move.booked_live {S : Setup} {w w' : World} (hlive : S.dryRun = false) (h : Move S w w')
    (hw : w.Booked) : w'.Booked := by
  cases h with
  | note h => exact ⟨h.orders ▸ hw.1, hw.2⟩
  | called n failed events h => exact hw
  | saved => exact ⟨hw.1, hw.1⟩
  | intended hfree h => exact hw
  | pend hp hfree h => exact hw
  | submit answer hp hpending h => exact hw
  | rewrite hp h => exact hw
  | release hp h => exact hw
  | track hp h => exact ⟨hw.1.adopted _, hw.2⟩
  | cancelled h => exact ⟨hw.1.cancelled _, hw.2⟩
  | dropped h => exact ⟨hw.1.dropped _, hw.2⟩
  | paperPlaced t hpaper hsize h =>
      rw [hlive] at hpaper
      cases hpaper
  | ignored ho _ h => exact ⟨hw.1.ignored ho (OrderStatus.filledQty_nonneg _) h, hw.2⟩
  | booked ho _ h => exact ⟨hw.1.reported ho (OrderStatus.filledQty_nonneg _), hw.2⟩
  | paperFilled ho hpaper =>
      rw [hlive] at hpaper
      cases hpaper
  | flattened =>
      refine ⟨?_, hw.2⟩
      show TradingFleet.SpotDca.Booked (w.s.flattened S.precision).orders _
      unfold State.flattened
      split
      · exact hw.1
      · exact hw.1
  | held kind price hflat => exact hw
  | closed kind price hflat horders hpending =>
      refine ⟨⟨List.nodup_nil, fun txid horderly hfollows => ?_⟩, hw.2⟩
      have hforeign : Posting.closed.foreign txid := ⟨rfl, rfl, rfl⟩
      rw [reports_foreign hforeign] at horderly hfollows
      exact (hw.1.account txid horderly hfollows).congr (reports_foreign hforeign)
        (fills_foreign hforeign) (fun o' ho' => by cases ho')
  | exitMarked e h => exact hw
  | positionAdopted qty hqty horders hflat hspent hcost => exact hw
  | restarted => exact ⟨hw.2, hw.2⟩

theorem booked_empty : TradingFleet.SpotDca.Booked [] [] := by
  refine ⟨List.nodup_nil, fun txid _ _ => ?_⟩
  have hreports : reports txid [] = [] := rfl
  have hfills : fills txid [] = [] := rfl
  constructor
  · simp [appliedVolume, hfills, hreports, lastVolume]
  · simp [appliedVolume, hfills, hreports, lastVolume, slack]
  · simp [appliedTotal, hfills, hreports, lastCost]
  · simp [hreports]
  · simp

/-- No status was read. -/
def Unreported (ps : List Posting) : Prop := ∀ p ∈ ps, ∀ txid, p.reportOn txid = none

theorem Unreported.cons {ps : List Posting} (h : Unreported ps) {q : Posting}
    (hq : ∀ txid, q.reportOn txid = none) : Unreported (q :: ps) := by
  intro p hp
  rcases List.mem_cons.mp hp with rfl | hp
  · exact hq
  · exact h p hp

theorem Unreported.reports {txid : String} {ps : List Posting} (h : Unreported ps) :
    reports txid ps = [] := by
  unfold TradingFleet.SpotDca.reports
  rw [List.filterMap_eq_nil_iff]
  intro p hp
  exact h p ((List.takeWhile_sublist _).subset hp) txid

/-- Paper mode reads no status. -/
theorem Move.unreported {S : Setup} {w w' : World} (hpaper : S.dryRun = true) (h : Move S w w')
    (hw : Unreported w.postings ∧ Unreported w.savedPostings) :
    Unreported w'.postings ∧ Unreported w'.savedPostings := by
  cases h with
  | note h => exact hw
  | called n failed events h => exact hw
  | saved => exact ⟨hw.1, hw.1⟩
  | intended hfree h => exact hw
  | pend hp hfree h => exact hw
  | submit answer hp hpending h => exact hw
  | rewrite hp h => exact hw
  | release hp h => exact hw
  | track hp h =>
      refine ⟨?_, hw.2⟩
      unfold World.adopted
      dsimp only
      split
      · exact hw.1
      · exact hw.1.cons (fun _ => rfl)
  | cancelled h => exact hw
  | dropped h => exact hw
  | paperPlaced t _ hsize h => exact ⟨hw.1.cons (fun _ => rfl), hw.2⟩
  | ignored ho hlive h =>
      rw [hpaper] at hlive
      cases hlive
  | booked ho hlive h =>
      rw [hpaper] at hlive
      cases hlive
  | paperFilled ho _ => exact ⟨hw.1.cons (fun _ => rfl), hw.2⟩
  | flattened => exact hw
  | held kind price hflat => exact hw
  | closed kind price hflat horders hpending => exact ⟨hw.1.cons (fun _ => rfl), hw.2⟩
  | exitMarked e h => exact hw
  | positionAdopted qty hqty horders hflat hspent hcost => exact hw
  | restarted => exact ⟨hw.2, hw.2⟩

/-! ### What the ledger holds -/

theorem Holdings.average_eq (s : State) (price : ℚ) :
    s.holdings.average price = orElse s.avg price := by
  unfold Holdings.average State.avg State.holdings
  by_cases hqty : flatQty < s.qty
  · by_cases hzero : s.cost / s.qty = 0
    · simp [hqty, hzero, orElse]
    · simp [hqty, hzero, orElse]
  · simp [hqty, orElse]

/-- A fill moves the holdings as its posting does. -/
theorem State.filled_holdings (s : State) (f : Fill) :
    (s.filled f).holdings = s.holdings.post (.fill f) := by
  cases hside : f.side with
  | buy => simp [State.filled, Holdings.post, hside, State.bought, State.charge, State.holdings]
  | sell =>
      have havg : orElse (s.charge f.fee).avg f.price = s.holdings.average f.price :=
        (Holdings.average_eq (s.charge f.fee) f.price).symm
      simp only [State.filled, Holdings.post, hside, State.sold, havg]
      simp only [State.charge, State.holdings, Holdings.mk.injEq, true_and]
      refine ⟨?_, ?_⟩
      · rw [mul_comm f.vol]
      · ring

/-- A late fee moves nothing. -/
theorem State.charge_holdings (s : State) (fee : ℚ) : (s.charge fee).holdings = s.holdings := rfl

theorem SameCore.holdings {s s' : State} (h : SameCore s s') : s'.holdings = s.holdings := by
  rw [h]
  rfl

section Held

variable {S : Setup} {ps : List Posting} {s : State}

theorem Holds.filled (h : Holds S ps s.holdings) (f : Fill) :
    Holds S (.fill f :: ps) (s.filled f).holdings := by
  rw [State.filled_holdings]
  exact h.posted (.fill f)

/-- Markers and removals aside, a report does what its fill does. -/
theorem Holds.reported (h : Holds S ps s.holdings) (o : Order) (r : Report) :
    Holds S (entered o r ps) (s.reported o r).holdings := by
  let marked := s.replace o (o.marked r)
  let kept := if r.terminal then marked.remove (o.marked r) else marked
  have hkept : Holds S (.report o r :: ps) kept.holdings := by
    have hsame : kept.holdings = s.holdings := by
      show (if r.terminal then marked.remove (o.marked r) else marked).holdings = s.holdings
      split <;> rfl
    rw [hsame]
    exact h.posted (.report o r)
  show Holds S (entered o r ps) (kept.accounted o r).holdings
  unfold State.accounted entered
  by_cases hfill : o.eps < o.deltaVol r
  · rw [if_pos hfill, if_pos hfill]
    exact hkept.filled (o.fill r)
  · rw [if_neg hfill, if_neg hfill]
    split
    · rw [State.charge_holdings]
      exact hkept
    · exact hkept

/-- The ledger in memory and the ledger on disk hold what their postings leave. -/
def World.Held (S : Setup) (w : World) : Prop :=
  Holds S w.postings w.s.holdings ∧ Holds S w.savedPostings w.saved.holdings

theorem Move.held_kept {w w' : World} (h : Move S w w') (hw : w.Held S) : w'.Held S := by
  cases h with
  | note h => exact ⟨h.holdings ▸ hw.1, hw.2⟩
  | called n failed events h => exact hw
  | saved => exact ⟨hw.1, hw.1⟩
  | intended hfree h => exact hw
  | pend hp hfree h => exact hw
  | submit answer hp hpending h => exact hw
  | rewrite hp h => exact hw
  | release hp h => exact hw
  | track hp h =>
      refine ⟨?_, hw.2⟩
      unfold World.adopted
      dsimp only
      split
      · exact hw.1
      · exact hw.1.posted (.tracked _)
  | cancelled h => exact hw
  | dropped h => exact hw
  | paperPlaced t hpaper hsize h => exact ⟨hw.1.posted _, hw.2⟩
  | ignored ho hlive h => exact ⟨hw.1.posted _, hw.2⟩
  | booked ho hlive h => exact ⟨hw.1.reported _ _, hw.2⟩
  | paperFilled ho hpaper =>
      refine ⟨Holds.filled ?_ _, hw.2⟩
      exact hw.1
  | flattened =>
      refine ⟨?_, hw.2⟩
      unfold State.flattened
      split
      · rename_i hdust
        exact hw.1.dust hdust
      · exact hw.1
  | held kind price hflat => exact hw
  | closed kind price hflat horders hpending => exact ⟨hw.1.posted .closed, hw.2⟩
  | exitMarked e h => exact hw
  | positionAdopted qty hqty horders hflat hspent hcost =>
      exact ⟨hw.1.found qty hqty hflat hspent, hw.2⟩
  | restarted => exact ⟨hw.2, hw.2⟩

theorem Reachable.held {w : World} (hw : Reachable S w) : Holds S w.postings w.s.holdings :=
  (hw.invariant (I := World.Held S) ⟨.nothing, .nothing⟩ (fun _ _ h hI => h.held_kept hI)).1

end Held

/-- In every reachable state, for every order: if its reports are a venue's and the cost of each
follows its quantity, then the ledger has received the quantity of the last report, up to the
tolerance of each report, and its cost, and holds what it received, and the order is gone if that
report was terminal. -/
theorem fills_match_reports {S : Setup} {w : World} (hw : Reachable S w) (txid : String)
    (hreported : reports txid w.postings ≠ [])
    (horderly : Orderly (reports txid w.postings))
    (hfollows : ∀ x ∈ reports txid w.postings, x.1.CostFollows x.2) : Resolved S txid w := by
  by_cases hpaper : S.dryRun = true
  · have hempty : Unreported [] := fun p hp => by cases hp
    have hnone := hw.invariant (I := fun w => Unreported w.postings ∧ Unreported w.savedPostings)
      ⟨hempty, hempty⟩ (fun _ _ h hI => Move.unreported hpaper h hI)
    exact absurd hnone.1.reports hreported
  · have hlive : S.dryRun = false := by simpa using hpaper
    have hbooked := hw.invariant (I := World.Booked) ⟨booked_empty, booked_empty⟩
      (fun _ _ h hI => Move.booked_live hlive h hI)
    have haccount := hbooked.1.account txid horderly hfollows
    exact ⟨hw.held, haccount.volume_le, haccount.volume_ge, haccount.cost, haccount.removed⟩

/-! ### An entry of 1 at 100, reported twice -/

instance (l : List (Order × Report)) : Decidable (Orderly l) :=
  inferInstanceAs (Decidable (_ ∧ _))

instance (o : Order) (r : Report) : Decidable (o.CostFollows r) :=
  inferInstanceAs (Decidable (if o.eps < r.totalVol - o.appliedVol then o.appliedCost < r.totalCost
    else r.totalCost = o.appliedCost))

/-- The first report is answered by the seventh call, the second by the ninth. -/
def twoReports (first last : OrderStatus) : Setup :=
  sampleSetup { sampleVenue with
    orderStatus := fun n => .ok (.ok (if n = 7 then first else last)) }

def twoReportsRun : List Action := [.step 100 {}, .reconcile 100, .reconcile 100]

/-- Half is filled at 100, then all of it for 99. -/
def costsReported : Setup :=
  twoReports (sampleStatus .opened (1 / 2) 50 halfUnit_nonneg (by norm_num))
    (sampleStatus .closed 1 99 boughtReport.filledQty_nonneg (by norm_num))

theorem costsReported_resolved :
    Resolved costsReported "O-4" (World.initial.run costsReported twoReportsRun) ∧
      (World.initial.run costsReported twoReportsRun).s.holdings =
        { qty := 1, cost := 99, spent := 100 } :=
  ⟨fills_match_reports ⟨twoReportsRun, rfl⟩ "O-4" (by decide +kernel) (by decide +kernel)
    (by decide +kernel), by decide +kernel⟩

/-- All is filled and the cost is missing, so it is estimated at 100; the last report has the cost
of 99 and is taken for a step back. -/
def costReportedLate : Setup :=
  twoReports (sampleStatus .opened 1 0 boughtReport.filledQty_nonneg OrderStatus.nothing_nonneg)
    (sampleStatus .closed 1 99 boughtReport.filledQty_nonneg (by norm_num))

theorem costReportedLate_not_resolved :
    Reachable costReportedLate (World.initial.run costReportedLate twoReportsRun) ∧
      Orderly (reports "O-4" (World.initial.run costReportedLate twoReportsRun).postings) ∧
      ((reports "O-4" (World.initial.run costReportedLate twoReportsRun).postings).head?.map
        Prod.snd) = some ⟨1, 99, 0, true⟩ ∧
      (World.initial.run costReportedLate twoReportsRun).s.orders.map Order.txid = ["O-4"] ∧
      (World.initial.run costReportedLate twoReportsRun).s.cost = 100 ∧
      ¬ Resolved costReportedLate "O-4" (World.initial.run costReportedLate twoReportsRun) := by
  refine ⟨⟨twoReportsRun, rfl⟩, by decide +kernel, by decide +kernel, by decide +kernel,
    by decide +kernel, fun h => ?_⟩
  have hcost : appliedTotal "O-4" (World.initial.run costReportedLate twoReportsRun).postings ≠
      lastCost (reports "O-4" (World.initial.run costReportedLate twoReportsRun).postings) := by
    decide +kernel
  exact hcost h.cost

end TradingFleet.SpotDca
