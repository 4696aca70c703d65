import TradingFleet.Permits.Freshness

set_option autoImplicit false

/-! # How old the synchronizations behind an order are

Two stretches of time are charged to nobody: from the last reading of the caches to the
construction of the permit, and from the comparison of the permit to the call of the client,
through all opposing cancellations. An order is fresh exactly when the two together fit into the
headroom the reading left beside the lifetime and into what is left of the lifetime
(`fresh_iff`). `permits_hold_iff` is the promise of the permits over every run.
-/

namespace TradingFleet.Permits

open TradingFleet.Runs

/-! ## The promise -/

/-- By how much a price is worse than the requested one. -/
def excess (side : String) (requested price : ℚ) : ℚ :=
  if side = "BUY" then price - requested else requested - price

/-- The order is inside the scope of the permit. -/
structure InScope (p : Permit) (o : ClientOrder) : Prop where
  pid : o.pid = p.pid
  symbol : Text.upper o.symbol = p.symbol
  side : o.side = p.side
  market : o.market = p.market
  kind : o.kind = p.kind
  qty : ∃ q, o.qty = .finite q ∧ 0 < q ∧ q ≤ p.maxQty
  price : p.market = false → ∃ r q, p.requestedPrice = some r ∧ o.price = .finite q ∧
    excess p.side r q ≤ p.priceTickSize

/-- Both synchronizations that authorized the permit are at most the maximum age old. -/
def Fresh (H : HealthConfig) (p : Permit) (t : ℚ) : Prop :=
  ∃ S, p.basis.read.snapshot? = some S ∧ t - (S.orderSyncMs : ℚ) / 1000 ≤ H.maxAgeSec ∧
    t - (S.tradeSyncMs : ℚ) / 1000 ≤ H.maxAgeSec

section Steps

variable (H : HealthConfig)

/-- What a call asks of the client. -/
def newActions (s : Desk) (c : Call) : List Action := (serve H s c).actions.drop s.actions.length

/-- Every order a call sends with a permit has an unconsumed permit, is inside its scope, and
fresh. -/
def OrdersAuthorized (s : Desk) (c : Call) : Prop :=
  ∀ o, Action.order o ∈ newActions H s c → ∀ i, o.permit = some i →
    ∃ p, s.permits[i]? = some p ∧ p.consumed = false ∧ InScope p o ∧ Fresh H p o.calledAt

/-- A permit that does not accept the call it is presented with is burned, and nothing is
asked. -/
def MismatchBurned (s : Desk) : Call → Prop
  | .issue _ => True
  | .submit x => ∀ i p, x.permit = some i → s.permits[i]? = some p →
      p.accepts x (presentedAt s x) = false →
      (∃ p', (serve H s (.submit x)).permits[i]? = some p' ∧ p'.consumed = true) ∧
        newActions H s (.submit x) = []

/-- The orders sent with a permit. -/
def ordersOf (i : Nat) (s : Desk) : List ClientOrder :=
  s.actions.filterMap (fun a =>
    match a with
    | .order o => if o.permit = some i then some o else none
    | .cancel _ => none)

/-- **What the permits promise**: each leads to one order at most, and every step keeps to the
scope and the age, and burns what does not match. -/
structure PermitsHold (s : Desk) (calls : List Call) : Prop where
  once : ∀ i, (ordersOf i (calls.foldl (serve H) s)).length ≤ 1
  steps : Along (serve H) (fun s c => OrdersAuthorized H s c ∧ MismatchBurned H s c) s calls

/-! ## The condition -/

/-- From the reading of the caches to the construction of the permit. -/
def Permit.issueGap (p : Permit) : ℚ := p.issuedAtWall - (p.basis.nowMs : ℚ) / 1000

/-- What the reading left beside the ages and the lifetime. -/
def Permit.spare (p : Permit) (S : Snapshot) : ℚ :=
  H.maxAgeSec - H.permitTtlSec -
    max ((p.basis.nowMs : ℚ) / 1000 - (S.orderSyncMs : ℚ) / 1000)
      ((p.basis.nowMs : ℚ) / 1000 - (S.tradeSyncMs : ℚ) / 1000)

/-- What is left of the lifetime when the permit is compared. -/
def Permit.unused (p : Permit) (c : Clock) : ℚ := p.expiresAtWall - c.wall

/-- For a call that reaches the client, the uncharged time fits into the spare time. -/
def GapsCovered (s : Desk) (x : SubmitCall) : Prop :=
  ∀ i p S, x.permit = some i → Accepted s x i p → reachesClient x = true →
    p.basis.read.snapshot? = some S →
    p.issueGap + x.toCall.wall ≤ p.spare H S + p.unused (presentedAt s x)

/-- A call whose permit does not match does not also ask for opposing cancellations in a way
that is refused. -/
def CancelReadable (s : Desk) (x : SubmitCall) : Prop :=
  ∀ i p, x.permit = some i → s.permits[i]? = some p → p.consumed = false →
    p.accepts x (presentedAt s x) = false → refusesCancel x = false

def Covered (s : Desk) : Call → Prop
  | .issue _ => True
  | .submit x => GapsCovered H s x ∧ CancelReadable s x

end Steps

/-! ## Burned permits -/

variable {H : HealthConfig}

theorem burn_getElem? (l : List Permit) (i j : Nat) :
    (burn l i)[j]? = l[j]?.map (fun p => if i = j then { p with consumed := true } else p) := by
  unfold burn
  rw [List.getElem?_modify]
  rfl

theorem burn_self {l : List Permit} {i : Nat} {p : Permit} (h : l[i]? = some p) :
    (burn l i)[i]? = some { p with consumed := true } := by
  rw [burn_getElem?, h]
  simp

theorem mem_burn {l : List Permit} {i : Nat} {p : Permit} (h : p ∈ burn l i) :
    p ∈ l ∨ ∃ p' ∈ l, p = { p' with consumed := true } := by
  obtain ⟨j, hj⟩ := List.mem_iff_getElem?.mp h
  rw [burn_getElem?] at hj
  obtain ⟨p', hp', heq⟩ := Option.map_eq_some_iff.mp hj
  have hmem : p' ∈ l := List.mem_iff_getElem?.mpr ⟨j, hp'⟩
  split at heq
  · exact Or.inr ⟨p', hmem, heq.symm⟩
  · exact Or.inl (heq ▸ hmem)

/-! ## The invariant of a run -/

/-- Permits are sound, and an order with a permit means that the permit is consumed. -/
structure Regular (H : HealthConfig) (s : Desk) : Prop where
  sound : ∀ p ∈ s.permits, Sound H p
  once : ∀ i, (ordersOf i s).length ≤ 1
  burned : ∀ i, ordersOf i s ≠ [] → ∃ p, s.permits[i]? = some p ∧ p.consumed = true

theorem ordersOf_append (i : Nat) (s : Desk) (l : List Action) {s' : Desk}
    (h : s'.actions = s.actions ++ l) :
    ordersOf i s' = ordersOf i s ++ ordersOf i ⟨s.clock, s.permits, l⟩ := by
  unfold ordersOf
  rw [h, List.filterMap_append]

/-- What is added carries no permit of this index. -/
theorem ordersOf_same {i : Nat} {s s' : Desk} {l : List Action}
    (h : s'.actions = s.actions ++ l)
    (hl : ∀ o, Action.order o ∈ l → o.permit ≠ some i) : ordersOf i s' = ordersOf i s := by
  have hnone : ordersOf i ⟨s.clock, s.permits, l⟩ = [] := by
    unfold ordersOf
    rw [List.filterMap_eq_nil_iff]
    intro a ha
    cases a with
    | cancel orderId => rfl
    | order o => exact if_neg (hl o ha)
  rw [ordersOf_append i s l h, hnone, List.append_nil]

theorem ordersOf_kept {i : Nat} {s s' : Desk} (h : s'.actions = s.actions) :
    ordersOf i s' = ordersOf i s := by
  unfold ordersOf
  rw [h]

theorem not_order_mem_cancels {o : ClientOrder} {cs : List Nat} :
    Action.order o ∉ cs.map Action.cancel := by
  simp

namespace Regular

variable {s s' : Desk}

theorem burned_after (h : Regular H s) {i : Nat} (hp : s'.permits = burn s.permits i) {j : Nat}
    (hj : ordersOf j s ≠ []) : ∃ p, s'.permits[j]? = some p ∧ p.consumed = true := by
  obtain ⟨p, hheld, hconsumed⟩ := h.burned j hj
  rw [hp, burn_getElem?, hheld]
  refine ⟨_, rfl, ?_⟩
  split
  · rfl
  · exact hconsumed

theorem sound_after (h : Regular H s) {i : Nat} (hp : s'.permits = burn s.permits i) :
    ∀ p ∈ s'.permits, Sound H p := by
  intro p hmem
  rw [hp] at hmem
  rcases mem_burn hmem with hold | ⟨p', hold, rfl⟩
  · exact h.sound p hold
  · exact ⟨(h.sound p' hold).expires, (h.sound p' hold).tick, (h.sound p' hold).basis⟩

/-- Orders are only added under other indices, and permits are only burned. -/
theorem same_orders (h : Regular H s) {i : Nat} (hp : s'.permits = burn s.permits i)
    (ho : ∀ j, ordersOf j s' = ordersOf j s) : Regular H s' where
  sound := h.sound_after hp
  once := fun j => by
    rw [ho j]
    exact h.once j
  burned := fun j hj => by
    rw [ho j] at hj
    exact h.burned_after hp hj

theorem kept (h : Regular H s) (hp : s'.permits = s.permits)
    (ho : ∀ j, ordersOf j s' = ordersOf j s) : Regular H s' where
  sound := hp ▸ h.sound
  once := fun j => by
    rw [ho j]
    exact h.once j
  burned := fun j hj => by
    rw [ho j] at hj
    rw [hp]
    exact h.burned j hj

/-- The order of a permit that was unconsumed is its first. -/
theorem ordered (h : Regular H s) {x : SubmitCall} {i : Nat} {p : Permit} (hx : x.permit = some i)
    (hacc : Accepted s x i p) (hp : s'.permits = burn s.permits i) {cs : List Nat}
    (ha : s'.actions = s.actions ++ cs.map Action.cancel ++
      [.order (clientOrder x (calledAt s x))]) : Regular H s' := by
  have hfirst : ordersOf i s = [] := by
    by_contra hne
    obtain ⟨p', hp', hconsumed⟩ := h.burned i hne
    rw [hacc.held] at hp'
    cases hp'
    rw [hacc.unconsumed] at hconsumed
    cases hconsumed
  have hother : ∀ j, j ≠ i → ordersOf j s' = ordersOf j s := by
    intro j hj
    apply ordersOf_same (by rw [ha, List.append_assoc])
    intro o ho
    rcases List.mem_append.mp ho with hcancel | horder
    · exact absurd hcancel not_order_mem_cancels
    · rw [List.mem_singleton, Action.order.injEq] at horder
      rw [horder]
      show x.permit ≠ some j
      rw [hx]
      exact fun heq => hj (Option.some.inj heq).symm
  have hown : (ordersOf i s').length ≤ 1 := by
    have hcancels : ordersOf i ⟨s.clock, s.permits, s.actions ++ cs.map Action.cancel⟩ =
        ordersOf i s :=
      ordersOf_same rfl (fun o ho => absurd ho not_order_mem_cancels)
    rw [ordersOf_append i ⟨s.clock, s.permits, s.actions ++ cs.map Action.cancel⟩ _ ha, hcancels,
      hfirst, List.nil_append]
    exact (List.length_filterMap_le _ _).trans le_rfl
  constructor
  · exact h.sound_after hp
  · intro j
    by_cases hj : j = i
    · rw [hj]
      exact hown
    · rw [hother j hj]
      exact h.once j
  · intro j hne
    by_cases hj : j = i
    · rw [hj, hp]
      exact ⟨_, burn_self hacc.held, rfl⟩
    · rw [hother j hj] at hne
      exact h.burned_after hp hne

theorem serve (h : Regular H s) (c : Call) : Regular H (serve H s c) := by
  cases c with
  | issue x =>
      have hends := issue_ends H s x
      have ho : ∀ j, ordersOf j (Permits.serve H s (.issue x)) = ordersOf j s :=
        fun j => ordersOf_kept hends.actions
      rcases hends.permits with hp | ⟨p, hp, hsound, -⟩
      · exact h.kept hp ho
      · constructor
        · intro q hq
          rw [hp] at hq
          rcases List.mem_append.mp hq with hold | hnew
          · exact h.sound q hold
          · rw [List.mem_singleton.mp hnew]
            exact hsound
        · intro j
          rw [ho j]
          exact h.once j
        · intro j hj
          rw [ho j] at hj
          obtain ⟨q, hq, hconsumed⟩ := h.burned j hj
          refine ⟨q, ?_, hconsumed⟩
          rw [hp, List.getElem?_append_left (List.getElem?_eq_some_iff.mp hq).1]
          exact hq
  | submit x =>
      cases submit_ends H s x with
      | unpermitted hx hp l hl ha =>
          refine h.kept hp (fun j => ordersOf_same ha (fun o ho => ?_))
          rw [hl o ho]
          simp
      | uncompared i hx hp ha why => exact h.kept hp (fun j => ordersOf_kept ha)
      | mismatched i hx hp ha _ why => exact h.same_orders hp (fun j => ordersOf_kept ha)
      | spent i hx p hacc hp why cs ha =>
          exact h.same_orders hp
            (fun j => ordersOf_same ha (fun o ho => absurd ho not_order_mem_cancels))
      | ordered i hx p hacc hp why cs ha => exact h.ordered hx hacc hp ha

end Regular

/-! ## One call -/

/-- What a permit accepts is inside its scope. -/
theorem Accepted.inScope {s : Desk} {x : SubmitCall} {i : Nat} {p : Permit}
    (h : Accepted s x i p) (hsound : Sound H p) (c : Clock) : InScope p (clientOrder x c) := by
  have haccepts := h.accepts
  simp only [Permit.accepts, Bool.and_eq_true, Bool.or_eq_true, decide_eq_true_eq] at haccepts
  obtain ⟨⟨⟨⟨⟨⟨⟨⟨⟨⟨hpid, -⟩, -⟩, -⟩, -⟩, hsymbol⟩, hside⟩, hmarket⟩, hkind⟩, hqty⟩, hprice⟩ :=
    haccepts
  refine ⟨hpid.symm, hsymbol.symm, hside.symm, hmarket.symm, hkind.symm, ?_, ?_⟩
  · show ∃ q, x.qty = .finite q ∧ 0 < q ∧ q ≤ p.maxQty
    cases hx : x.qty with
    | raises => simp [hx, Value.isFinite] at hqty
    | nonfinite => simp [hx, Value.isFinite] at hqty
    | finite q =>
        simp only [hx, Value.isFinite, Option.any_some, Bool.and_eq_true, decide_eq_true_eq] at hqty
        exact ⟨q, rfl, hqty.1, hqty.2⟩
  · intro hlimit
    have hsafe := hprice.resolve_left (by simp [hlimit])
    unfold Permit.priceIsSafe at hsafe
    split at hsafe
    · rename_i submitted scopedPrice hsubmitted hscoped
      simp only [Bool.and_eq_true, Bool.or_eq_true, decide_eq_true_eq] at hsafe
      obtain ⟨⟨-, hrequested⟩, hbetter⟩ := hsafe
      refine ⟨scopedPrice, submitted, hrequested, hsubmitted, ?_⟩
      have htick := hsound.tick
      unfold excess
      rcases hbetter with ⟨hbuy, hle⟩ | ⟨hsell, hle⟩
      · rw [if_pos hbuy]
        linarith
      · rw [if_neg (by simp [hsell])]
        linarith
    · cases hsafe

/-- **The age of what authorized an order**, in terms of the two gaps: from the reading of the
caches to the permit, and from its comparison at `c` to the call of the client. -/
theorem fresh_iff {p : Permit} {S : Snapshot} (hsound : Sound H p)
    (hS : p.basis.read.snapshot? = some S) (c : Clock) (d : ℚ) :
    Fresh H p (c.wall + d) ↔ p.issueGap + d ≤ p.spare H S + p.unused c := by
  have hexpires := hsound.expires
  have hages : p.issueGap + d ≤ p.spare H S + p.unused c ↔
      max ((p.basis.nowMs : ℚ) / 1000 - (S.orderSyncMs : ℚ) / 1000)
        ((p.basis.nowMs : ℚ) / 1000 - (S.tradeSyncMs : ℚ) / 1000) ≤
      H.maxAgeSec - (c.wall + d - (p.basis.nowMs : ℚ) / 1000) := by
    unfold Permit.issueGap Permit.spare Permit.unused
    rw [hexpires]
    constructor
    · intro h
      linarith
    · intro h
      linarith
  rw [hages, max_le_iff]
  constructor
  · rintro ⟨S', hS', horder, htrade⟩
    rw [hS] at hS'
    cases hS'
    exact ⟨by linarith, by linarith⟩
  · rintro ⟨horder, htrade⟩
    exact ⟨S, hS, by linarith, by linarith⟩

theorem newActions_eq {s : Desk} {c : Call} {l : List Action}
    (h : (serve H s c).actions = s.actions ++ l) : newActions H s c = l := by
  unfold newActions
  rw [h, List.drop_left]

theorem newActions_kept {s : Desk} {c : Call} (h : (serve H s c).actions = s.actions) :
    newActions H s c = [] :=
  newActions_eq (by rw [h, List.append_nil])

/-- Without a new order nothing has to be authorized. -/
theorem ordersAuthorized_of_none {s : Desk} {c : Call}
    (h : ∀ o, Action.order o ∈ newActions H s c → o.permit = none) : OrdersAuthorized H s c := by
  intro o ho i hi
  rw [h o ho] at hi
  cases hi

/-- **A step keeps the promise exactly when its gaps are covered.** -/
theorem step_holds_iff {s : Desk} (h : Regular H s) (c : Call) :
    (OrdersAuthorized H s c ∧ MismatchBurned H s c) ↔ Covered H s c := by
  cases c with
  | issue x =>
      have hnew := newActions_kept (issue_ends H s x).actions
      constructor
      · exact fun _ => trivial
      · exact fun _ => ⟨ordersAuthorized_of_none (by simp [hnew]), trivial⟩
  | submit x =>
      show _ ↔ GapsCovered H s x ∧ CancelReadable s x
      cases submit_ends H s x with
      | unpermitted hx hp l hl ha =>
          have hnew := newActions_eq ha
          constructor
          · intro _
            constructor
            · intro i p S hi
              rw [hx] at hi
              cases hi
            · intro i p hi
              rw [hx] at hi
              cases hi
          · intro _
            constructor
            · exact ordersAuthorized_of_none (by rw [hnew]; exact hl)
            · intro i p hi
              rw [hx] at hi
              cases hi
      | uncompared i hx hp ha why =>
          have hnew := newActions_kept ha
          have hauthorized : OrdersAuthorized H s (.submit x) :=
            ordersAuthorized_of_none (by simp [hnew])
          constructor
          · rintro ⟨-, hburned⟩
            constructor
            · intro j p S hj hacc hreach
              rw [hx] at hj
              cases hj
              rcases why with hrefuses | hconsumed
              · unfold refusesCancel at hrefuses
                unfold reachesClient at hreach
                split at hrefuses
                · rename_i e he
                  simp [he] at hreach
                · cases hrefuses
              · have hc := hconsumed p hacc.held
                rw [hacc.unconsumed] at hc
                cases hc
            · intro j p hj hheld hunconsumed hmismatch
              -- the permit was not burned, so it was consumed before
              obtain ⟨⟨p', hp', hconsumed⟩, -⟩ := hburned j p hj hheld hmismatch
              rw [hp, hheld] at hp'
              cases hp'
              rw [hunconsumed] at hconsumed
              cases hconsumed
          · rintro ⟨-, hreadable⟩
            refine ⟨hauthorized, ?_⟩
            intro j p hj hheld hmismatch
            refine ⟨⟨p, by rw [hp]; exact hheld, ?_⟩, hnew⟩
            by_contra hunconsumed
            have hun : p.consumed = false := by simpa using hunconsumed
            rw [hx] at hj
            cases hj
            rcases why with hrefuses | hconsumed
            · rw [hreadable i p hx hheld hun hmismatch] at hrefuses
              cases hrefuses
            · exact hunconsumed (hconsumed p hheld)
      | mismatched i hx hp ha readable why =>
          have hnew := newActions_kept ha
          constructor
          · intro _
            constructor
            · intro j p S hj hacc
              rw [hx] at hj
              cases hj
              have hno := (why p hacc.held).2
              rw [hacc.accepts] at hno
              cases hno
            · intro j p _ _ _ _
              exact readable
          · intro _
            refine ⟨ordersAuthorized_of_none (by simp [hnew]), ?_⟩
            intro j p hj hheld _
            rw [hx] at hj
            cases hj
            exact ⟨⟨_, by rw [hp]; exact burn_self hheld, rfl⟩, hnew⟩
      | spent i hx p hacc hp why cs ha =>
          have hnew := newActions_eq ha
          have hmatches : ∀ q, s.permits[i]? = some q → q.accepts x (presentedAt s x) = true := by
            intro q hq
            rw [hacc.held] at hq
            cases hq
            exact hacc.accepts
          constructor
          · intro _
            constructor
            · intro j q S _ _ hreach
              rw [why] at hreach
              cases hreach
            · intro j q hj hq _ hmismatch
              rw [hx] at hj
              cases hj
              rw [hmatches q hq] at hmismatch
              cases hmismatch
          · intro _
            constructor
            · apply ordersAuthorized_of_none
              rw [hnew]
              exact fun o ho => absurd ho not_order_mem_cancels
            · intro j q hj hq hmismatch
              rw [hx] at hj
              cases hj
              rw [hmatches q hq] at hmismatch
              cases hmismatch
      | ordered i hx p hacc hp why cs ha =>
          have hnew := newActions_eq (ha.trans (List.append_assoc _ _ _))
          have hsound : Sound H p := h.sound p (List.mem_of_getElem? hacc.held)
          have hheld : ∀ q, s.permits[i]? = some q → q = p := by
            intro q hq
            rw [hacc.held] at hq
            exact (Option.some.inj hq).symm
          constructor
          · rintro ⟨hauthorized, -⟩
            constructor
            · intro j q S hj hq _ hS
              rw [hx] at hj
              cases hj
              obtain rfl := hheld q hq.held
              obtain ⟨q', hq', -, -, hfresh⟩ := hauthorized (clientOrder x (calledAt s x))
                (by rw [hnew]; simp) i hx
              obtain rfl := hheld q' hq'
              exact (fresh_iff hsound hS (presentedAt s x) x.toCall.wall).mp hfresh
            · intro j q hj hq _ hmismatch
              rw [hx] at hj
              cases hj
              obtain rfl := hheld q hq
              rw [hacc.accepts] at hmismatch
              cases hmismatch
          · rintro ⟨hcovered, -⟩
            constructor
            · intro o ho j hj
              rw [hnew] at ho
              rcases List.mem_append.mp ho with hcancel | horder
              · exact absurd hcancel not_order_mem_cancels
              · rw [List.mem_singleton, Action.order.injEq] at horder
                subst horder
                have hji : j = i := by
                  have hpermit : x.permit = some j := hj
                  rw [hx] at hpermit
                  exact (Option.some.inj hpermit).symm
                subst hji
                obtain ⟨S, hS, -⟩ := hsound.basis
                have hgap := hcovered j p S hx hacc why hS
                exact ⟨p, hacc.held, hacc.unconsumed, hacc.inScope hsound _,
                  (fresh_iff hsound hS (presentedAt s x) x.toCall.wall).mpr hgap⟩
            · intro j q hj hq hmismatch
              rw [hx] at hj
              cases hj
              obtain rfl := hheld q hq
              rw [hacc.accepts] at hmismatch
              cases hmismatch

/-! ## Runs -/

/-- **A submit permit authorizes one order on fresh data, exactly in the runs whose gaps are
covered** and in which no mismatch hides behind an unreadable request for cancellations. -/
theorem permits_hold_iff (H : HealthConfig) (c : Clock) (calls : List Call) :
    PermitsHold H ⟨c, [], []⟩ calls ↔ Along (serve H) (Covered H) ⟨c, [], []⟩ calls := by
  have hstart : Regular H ⟨c, [], []⟩ := ⟨by simp, by simp [ordersOf], by simp [ordersOf]⟩
  have hregular : ∀ s call, Regular H s → Regular H (serve H s call) :=
    fun s call hs => hs.serve call
  have hsteps : Along (serve H) (fun s c => OrdersAuthorized H s c ∧ MismatchBurned H s c)
      ⟨c, [], []⟩ calls ↔ Along (serve H) (Covered H) ⟨c, [], []⟩ calls :=
    Along.congr hregular (fun s call hs => step_holds_iff hs call) hstart
  have hend : Regular H (calls.foldl (serve H) ⟨c, [], []⟩) :=
    Along.invariant (C := fun _ _ => True) (fun s call hs _ => hs.serve call) hstart
      (Along.of_forall (fun _ _ => trivial) _ calls)
  constructor
  · exact fun h => hsteps.mp h.steps
  · exact fun h => ⟨hend.once, hsteps.mpr h⟩

/-- Where no time is left uncharged, the gaps are covered: a reading leaves room for the
lifetime, and a permit is accepted within it. -/
theorem covered_of_prompt {s : Desk} (h : Regular H s) {x : SubmitCall}
    (hprompt : ∀ p ∈ s.permits, p.issueGap + x.toCall.wall ≤ 0) : GapsCovered H s x := by
  intro i p S _ hacc _ hS
  have hmem : p ∈ s.permits := List.mem_of_getElem? hacc.held
  have hzero := hprompt p hmem
  obtain ⟨S', hS', horder, htrade⟩ := (h.sound p hmem).basis
  rw [hS] at hS'
  cases hS'
  have hspare : 0 ≤ p.spare H S := by
    unfold Permit.spare
    have hmax := max_le (a := (p.basis.nowMs : ℚ) / 1000 - (S.orderSyncMs : ℚ) / 1000)
      (b := (p.basis.nowMs : ℚ) / 1000 - (S.tradeSyncMs : ℚ) / 1000)
      (c := H.maxAgeSec - H.permitTtlSec) (by linarith) (by linarith)
    linarith
  have hunused : 0 ≤ p.unused (presentedAt s x) := by
    have haccepts := hacc.accepts
    simp only [Permit.accepts, Bool.and_eq_true, decide_eq_true_eq] at haccepts
    have hwall := haccepts.1.1.1.1.1.1.1.1.2
    unfold Permit.unused
    linarith
  linarith

/-! ## A slow cancellation -/

/-- The configured times: ten minutes and one minute. -/
def sampleConfig : HealthConfig where
  maxAgeSec := 600
  permitTtlSec := 60
  processIdentityRequired := false
  maxAge_pos := by norm_num
  ttl_pos := by norm_num
  ttl_lt := by norm_num

/-- Both caches were synchronized at the wall clock 9460. -/
def sampleRead : HealthRead where
  file := .object [("schema_version", .int 2), ("writer_pid", .int 7),
    ("writer_started_at_ms", .int 1000), ("generation", .int 2), ("published_at_ms", .int 9460000),
    ("stopping", .bool false), ("order_sync_at_ms", .int 9460000),
    ("trade_sync_at_ms", .int 9460000), ("order_cache_version", .str "order"),
    ("trade_cache_version", .str "trade")]
  pidIsAlive := fun _ => true
  pidStartedAtMs := fun _ => none

def sampleCheck : CacheCheck where
  enabled := true
  first := ⟨⟨0, 0⟩, sampleRead, true, ⟨0, 0⟩, sampleRead⟩
  second := ⟨⟨0, 0⟩, sampleRead, true, ⟨0, 0⟩, sampleRead⟩

def sampleIssue : IssueCall where
  pid := 1
  symbol := "BTCUSDC"
  side := "BUY"
  qty := .finite 1
  price := .finite 100
  market := false
  kind := some "replacement"
  enabled := true
  early := sampleCheck
  info := some Orders.sampleInfo
  late := sampleCheck
  toIssue := ⟨0, 0⟩

/-- The permit is presented at the end of its lifetime, and the opposing cancellation takes five
seconds. -/
def slowSubmit : SubmitCall where
  pid := 1
  orderType := "BUY"
  symbol := "BTCUSDC"
  qty := .finite 1
  price := .finite 100
  market := false
  permit := some 0
  permitRequestedPrice := .finite 100
  kind := some "replacement"
  cancelRequestedPrice := some (.finite 100)
  enabledBefore := true
  check := sampleCheck
  toConsume := ⟨60, 60⟩
  enabled := true
  opposing := some [⟨5, 99, true⟩]
  toCall := ⟨5, 5⟩

def sampleStart : Desk := ⟨⟨10000, 500⟩, [], []⟩

/-- **An order on data that is too old.** The caches were read 540 seconds old, the permit lasts
60 seconds, and the client is called when they are 605 seconds old. -/
theorem slow_cancellation_outlives :
    ¬ ∀ (H : HealthConfig) (c : Clock) (calls : List Call), PermitsHold H ⟨c, [], []⟩ calls := by
  intro hall
  obtain ⟨-, hstep, -⟩ := (hall sampleConfig ⟨10000, 500⟩
    [.issue sampleIssue, .submit slowSubmit]).steps
  have horder : Action.order ⟨some 0, 1, "BTCUSDC", "BUY", false, "replacement", .finite 1,
      .finite 100, 10065⟩ ∈ newActions sampleConfig
        (serve sampleConfig sampleStart (.issue sampleIssue)) (.submit slowSubmit) := by
    decide +kernel
  obtain ⟨p, hp, -, -, S, hS, hage, -⟩ := hstep.1 _ horder 0 rfl
  have hsnapshot : ((serve sampleConfig sampleStart (.issue sampleIssue)).permits[0]?).map
      (fun p => p.basis.read.snapshot?.map (·.orderSyncMs)) = some (some 9460000) := by
    decide +kernel
  have hpS : some (some S.orderSyncMs) = some (some (9460000 : ℤ)) := by
    rw [← hsnapshot]
    show _ = Option.map _ ((serve sampleConfig ⟨⟨10000, 500⟩, [], []⟩
      (.issue sampleIssue)).permits[0]?)
    rw [hp]
    simp [hS]
  have hsync : S.orderSyncMs = 9460000 := Option.some.inj (Option.some.inj hpS)
  rw [hsync] at hage
  exact absurd hage (by norm_num [sampleConfig])

end TradingFleet.Permits
