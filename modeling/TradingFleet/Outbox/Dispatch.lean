import TradingFleet.Basic.Runs
import TradingFleet.Outbox.Submits

set_option autoImplicit false

/-! # No overlapping dispatch

Producers and the worker interleave at every lock boundary, processes crash anywhere, clocks
read anything. The worker never submits a record that a live producer still holds a claim
on: a claim that is not completed keeps its token, its mark and its owner's identity on the
record (`Fleet.claims`), so that every snapshot of the record shows a live owner, and the
worker leases only records for which it saw none (`Reserved`). And a lease that was
superseded is never on a record again (`Leases`), so that whoever still holds it is refused.
-/

namespace TradingFleet.Outbox

open TradingFleet.Text TradingFleet.Keyed TradingFleet.Hoare TradingFleet.Runs

/-! ## Leases -/

/-- The tokens an operation issues. -/
def Op.tokens (op : Op) : List String :=
  match op with
  | .claim _ _ _ token => [token]
  | .enqueue _ a ctx => if a.producerLease.isSome then [ctx.token] else []
  | .enqueueClaimed _ _ _ ctx => [ctx.token]
  | _ => []

theorem lease_of_same {r r' : Record} (hid : r'.id = r.id) (ht : r'.claimToken = r.claimToken)
    (hrev : r'.revision = r.revision) : r'.lease = r.lease := by
  unfold Record.lease
  rw [hid, ht, hrev]

theorem applyAccepted_token {r r' : Record} {order : Option OrderPayload} {now : ℚ}
    {provider : Option String} (h : applyAccepted r order now provider = some r') :
    r'.claimToken = r.claimToken := by
  unfold applyAccepted at h
  split at h
  · cases h
  · rw [Option.some.injEq] at h
    rw [← h]
    unfold appendOrderHistory
    simp only
    split_ifs <;> rfl

theorem failRecord_token (reason : Option String) (now : ℚ) (state : Option SubmissionState)
    (r : Record) : (failRecord reason now state r).claimToken = r.claimToken := by
  unfold failRecord
  simp only
  split
  · rfl
  · split_ifs <;> rfl

/-- What an operation does to the lease of a record that stays. -/
theorem Change.lease {op : Op} {r r' : Record} (h : Change op r r') :
    r'.lease = r.lease ∨ r'.claimToken = none ∨ ∃ t ∈ op.tokens, r'.claimToken = some t := by
  cases h with
  | same => exact Or.inl rfl
  | refreshed _ _ he =>
      -- only records without a claim are refreshed
      refine Or.inr (Or.inl ?_)
      simp only [safeToEvictForCapacity, recordHasClaim, Bool.and_eq_true, Bool.not_eq_true',
        Bool.or_eq_false_iff, Option.isSome_eq_false_iff, Option.isNone_iff_eq_none] at he
      exact he.1.1.1.1.2.1.1
  | @claimed ids now lease token =>
      exact Or.inr (Or.inr ⟨token, by simp [Op.tokens], rfl⟩)
  | begun => exact Or.inl rfl
  | @completed claimed c _ x => exact Or.inr (Or.inl (finishClaim_recorded c x).1)
  | failed =>
      exact Or.inl (lease_of_same (failRecord_id _ _ _ r) (failRecord_token _ _ _ r)
        (failRecord_quantities _ _ _ r).revision)
  | accepted _ ha =>
      exact Or.inl (lease_of_same (applyAccepted_id ha) (applyAccepted_token ha)
        (applyAccepted_quantities ha).revision)
  | activated => exact Or.inl rfl

theorem newRecord_token (a : EnqueueArgs) (ctx : CallContext) (side : Side) :
    (newRecord a ctx side).claimToken = if a.producerLease.isSome then some ctx.token else none := by
  unfold newRecord
  simp only
  cases a.producerLease <;> rfl

theorem Fresh.token {op : Op} {r : Record} (h : Fresh op r) :
    r.claimToken = none ∨ ∃ t ∈ op.tokens, r.claimToken = some t := by
  cases h with
  | @enqueued cfg a ctx side hop _ =>
      rw [newRecord_token]
      cases op with
      | enqueue cfg' a' ctx' =>
          cases hop
          by_cases hl : a.producerLease.isSome = true
          · exact Or.inr ⟨ctx.token, by simp [Op.tokens, hl], by rw [if_pos hl]⟩
          · exact Or.inl (by rw [if_neg hl])
      | enqueueClaimed cfg' a' lease ctx' =>
          cases hop
          exact Or.inr ⟨ctx.token, by simp [Op.tokens], rfl⟩
      | _ => cases hop

/-- IDs and tokens were issued, IDs are unique, and no superseded lease is on a record. -/
structure Leases (sh : Shared) : Prop where
  nodup : (sh.queue.map Record.id).Nodup
  issued : ∀ r ∈ sh.queue, r.id ∈ sh.used
  tokens : ∀ r ∈ sh.queue, ∀ t, r.claimToken = some t → t ∈ sh.used
  supersededUsed : ∀ l ∈ sh.superseded, l.recordId ∈ sh.used ∧ l.token ∈ sh.used
  noneSuperseded : ∀ r ∈ sh.queue, ∀ l, r.lease = some l → l ∉ sh.superseded

theorem lease_fields {r : Record} {l : Lease} (h : r.lease = some l) :
    l.recordId = r.id ∧ r.claimToken = some l.token ∧ l.revision = r.revision := by
  unfold Record.lease at h
  obtain ⟨t, ht, rfl⟩ := Option.map_eq_some_iff.mp h
  exact ⟨rfl, ht, rfl⟩

/-- One operation with fresh IDs and tokens keeps the leases in order. -/
theorem Leases.write {sh : Shared} (h : Leases sh) {o : Op} {u : List String}
    (hsub : ∀ x ∈ sh.used, x ∈ u) (hids : ∀ id ∈ o.issues, id ∉ sh.used ∧ id ∈ u)
    (htoks : ∀ t ∈ o.tokens, t ∉ sh.used ∧ t ∈ u) :
    Leases { sh.write (o.apply sh.queue) with used := u } where
  nodup := apply_nodup h.nodup h.issued (fun id hid => (hids id hid).1)
  issued := by
    intro r hr
    rcases List.mem_append.mp (apply_issued h.issued hr) with hid | hid
    · exact (hids _ hid).2
    · exact hsub _ hid
  tokens := by
    intro r hr t ht
    rcases apply_mem o hr with ⟨r₀, hr₀, hc⟩ | hfresh
    · -- a change keeps the lease, drops it or gives it a new token
      rcases hc.lease with hl | hn | ⟨t', ht', hr'⟩
      · have htok : r.claimToken = r₀.claimToken := by
          have := congrArg (Option.map Lease.token) hl
          simpa [Record.lease, Option.map_map, Function.comp_def] using this
        exact hsub _ (h.tokens r₀ hr₀ t (htok ▸ ht))
      · rw [hn] at ht; cases ht
      · rw [hr', Option.some.injEq] at ht
        exact ht ▸ (htoks t' ht').2
    · rcases hfresh.token with hn | ⟨t', ht', hr'⟩
      · rw [hn] at ht; cases ht
      · rw [hr', Option.some.injEq] at ht
        exact ht ▸ (htoks t' ht').2
  supersededUsed := by
    intro l hl
    rcases List.mem_append.mp hl with hl | hl
    · obtain ⟨hmem, -⟩ := List.mem_filter.mp hl
      obtain ⟨r, hr, hrl⟩ := List.mem_filterMap.mp hmem
      obtain ⟨hid, htok, -⟩ := lease_fields hrl
      exact ⟨hsub _ (hid ▸ h.issued r hr), hsub _ (h.tokens r hr l.token htok)⟩
    · exact ⟨hsub _ (h.supersededUsed l hl).1, hsub _ (h.supersededUsed l hl).2⟩
  noneSuperseded := by
    intro r hr l hrl hl
    rcases List.mem_append.mp hl with hl | hl
    · -- just superseded means: on no record of the new queue
      obtain ⟨-, hnot⟩ := List.mem_filter.mp hl
      simp only [decide_eq_true_eq] at hnot
      exact hnot (List.mem_filterMap.mpr ⟨r, hr, hrl⟩)
    · obtain ⟨hid, htok, -⟩ := lease_fields hrl
      have hold := (h.supersededUsed l hl).2
      rcases apply_mem o hr with ⟨r₀, hr₀, hc⟩ | hfresh
      · rcases hc.lease with heq | hn | ⟨t', ht', hr'⟩
        · exact h.noneSuperseded r₀ hr₀ l (heq ▸ hrl) hl
        · rw [hn] at htok; cases htok
        · rw [hr', Option.some.injEq] at htok
          exact (htoks t' ht').1 (htok ▸ hold)
      · exact (hids _ hfresh.id_mem).1 (hid ▸ (h.supersededUsed l hl).1)

/-! ## Claims of live producers -/

/-- A claim that a running producer was granted and nobody has completed. -/
structure Live (sh : Shared) (g : Grant) : Prop where
  granted : g ∈ sh.grants
  running : g.process ∈ sh.running
  other : g.process ≠ sh.worker
  pending : (g.recordId, g.token) ∉ sh.completed

/-- The record shows the claim: its token, its mark, and its owner's identity. -/
structure Carries (r : Record) (g : Grant) : Prop where
  id : r.id = g.recordId
  token : r.claimToken = some g.token
  state : r.submissionState = some .producerClaimed
  pid : r.producerPid = some g.process.pid
  start : r.producerProcessStartId = some g.process.start

/-- The invariant of the shared state. -/
structure Fleet (sh : Shared) : Prop where
  leases : Leases sh
  worker : sh.worker ∈ sh.spawned
  running : ∀ p ∈ sh.running, p ∈ sh.spawned
  pids : (sh.running.map Process.pid).Nodup
  grants : ∀ g ∈ sh.grants, g.process ∈ sh.spawned ∧ g.recordId ∈ sh.used ∧ g.token ∈ sh.used
  held : ∀ p snap, (p, snap) ∈ sh.held →
    ∃ t, snap.claimToken = some t ∧ ⟨p, snap.id, t⟩ ∈ sh.grants
  owner : ∀ p snap, (p, snap) ∈ sh.held → ∀ g ∈ sh.grants, snap.claimToken = some g.token →
    g.process = p
  claims : ∀ g, Live sh g → ∃ r ∈ sh.queue, Carries r g

/-- How the shared state may change: used values stay used, a new live claim is on a new
record, and a new snapshot is under a new token or one already held. -/
structure Evolves (sh sh' : Shared) : Prop where
  used : ∀ x ∈ sh.used, x ∈ sh'.used
  live : ∀ g, Live sh' g → Live sh g ∨ g.recordId ∉ sh.used
  held : ∀ p snap t, (p, snap) ∈ sh'.held → snap.claimToken = some t →
    t ∉ sh.used ∨ ∃ p' snap', (p', snap') ∈ sh.held ∧ snap'.claimToken = some t

theorem Evolves.refl (sh : Shared) : Evolves sh sh where
  used := fun _ h => h
  live := fun _ h => Or.inl h
  held := fun p snap _ h ht => Or.inr ⟨p, snap, h, ht⟩

theorem Evolves.trans {sh sh' sh'' : Shared} (h : Evolves sh sh') (h' : Evolves sh' sh'') :
    Evolves sh sh'' where
  used := fun x hx => h'.used x (h.used x hx)
  live := by
    intro g hg
    rcases h'.live g hg with hl | hn
    · exact h.live g hl
    · exact Or.inr (fun hu => hn (h.used _ hu))
  held := by
    intro p snap t hmem ht
    rcases h'.held p snap t hmem ht with hn | ⟨p', snap', hmem', ht'⟩
    · exact Or.inl (fun hu => hn (h.used _ hu))
    · exact h.held p' snap' t hmem' ht'

/-- Housekeeping does not touch a record with a claim. -/
theorem Carries.stays {op : Op} {q : Queue} {r : Record} {g : Grant} (h : Carries r g)
    (hr : r ∈ q) (hk : op.housekeeping = true) : r ∈ op.apply q := by
  have hkeep : safeToEvictForCapacity r = false := by
    simp [safeToEvictForCapacity, recordHasClaim, h.token]
  rcases apply_keeps op hr with ⟨r', hr', hc⟩ | hd
  · cases hc with
    | same => exact hr'
    | refreshed _ _ he => rw [hkeep] at he; cases he
    | claimed => cases hk
    | begun => cases hk
    | completed => cases hk
    | failed => cases hk
    | accepted => cases hk
    | activated => cases hk
  · cases hd with
    | evicted _ he => rw [hkeep] at he; cases he
    | expired he =>
        -- a marked record never expires
        cases hl : r.lifecycle with
        | submitPending => simp [isExpired, isPossiblySubmitted, hl, h.state] at he
        | accepted => simp [isExpired, hl] at he
        | awaitingCancel => simp [isExpired, hl] at he
    | completed => cases hk
    | resolved => cases hk

/-- A write that leaves the claimed records in place. -/
theorem Fleet.write {sh : Shared} (h : Fleet sh) {o : Op} {u : List String}
    (hsub : ∀ x ∈ sh.used, x ∈ u) (hids : ∀ id ∈ o.issues, id ∉ sh.used ∧ id ∈ u)
    (htoks : ∀ t ∈ o.tokens, t ∉ sh.used ∧ t ∈ u)
    (hstay : ∀ g r, Live sh g → r ∈ sh.queue → Carries r g → r ∈ o.apply sh.queue) :
    Fleet { sh.write (o.apply sh.queue) with used := u } ∧
      Evolves sh { sh.write (o.apply sh.queue) with used := u } := by
  have hlive : ∀ g, Live { sh.write (o.apply sh.queue) with used := u } g → Live sh g :=
    fun g hg => ⟨hg.granted, hg.running, hg.other, hg.pending⟩
  refine ⟨⟨h.leases.write hsub hids htoks, h.worker, h.running, h.pids, ?_, h.held, h.owner, ?_⟩,
    ⟨hsub, fun g hg => Or.inl (hlive g hg), fun p snap _ hmem ht => Or.inr ⟨p, snap, hmem, ht⟩⟩⟩
  · intro g hg
    obtain ⟨hp, hr, ht⟩ := h.grants g hg
    exact ⟨hp, hsub _ hr, hsub _ ht⟩
  · intro g hg
    obtain ⟨r, hr, hc⟩ := h.claims g (hlive g hg)
    exact ⟨r, hstay g r (hlive g hg) hr hc, hc⟩

/-- A completion closes the claim it matches and leaves every other record alone. -/
theorem Fleet.complete {sh sh' : Shared} (h : Fleet sh) {claimed : Record} {c : CompleteArgs}
    {b : Bool} (hok : sh.complete claimed c = .ok (b, sh')) : Fleet sh' ∧ Evolves sh sh' := by
  have happly := Shared.complete_apply hok
  unfold Shared.complete at hok
  cases hc : completeClaim claimed c sh.queue with
  | error e => rw [hc] at hok; cases hok
  | ok p =>
      obtain ⟨found, q⟩ := p
      rw [hc] at hok
      cases found with
      | false => cases hok; exact ⟨h, Evolves.refl _⟩
      | true =>
          cases hok
          have hq : q = (Op.completeClaim claimed c).apply sh.queue := happly
          have hlive : ∀ g, Live { sh.write q with
              completed := (claimed.id, claimed.claimToken.getD "") :: sh.completed } g →
              Live sh g ∧ (g.recordId, g.token) ≠ (claimed.id, claimed.claimToken.getD "") := by
            intro g hg
            refine ⟨⟨hg.granted, hg.running, hg.other, ?_⟩, ?_⟩
            · exact fun hmem => hg.pending (List.mem_cons_of_mem _ hmem)
            · exact fun heq => hg.pending (heq ▸ List.mem_cons_self)
          have hleases : Leases (sh.write q) := by
            rw [hq]
            exact h.leases.write (o := .completeClaim claimed c) (u := sh.used)
              (fun _ hx => hx) (fun id hid => by cases hid) (fun t ht => by cases ht)
          refine ⟨⟨⟨hleases.nodup, hleases.issued, hleases.tokens, hleases.supersededUsed,
            hleases.noneSuperseded⟩, h.worker, h.running, h.pids, h.grants, h.held, h.owner, ?_⟩,
            ⟨fun _ hx => hx, fun g hg => Or.inl (hlive g hg).1,
              fun p snap _ hmem ht => Or.inr ⟨p, snap, hmem, ht⟩⟩⟩
          intro g hg
          obtain ⟨hl, hne⟩ := hlive g hg
          obtain ⟨r, hr, hcar⟩ := h.claims g hl
          refine ⟨r, ?_, hcar⟩
          have hnot : sameClaim claimed r = false := by
            by_contra hm
            simp only [Bool.not_eq_false, sameClaim, Bool.and_eq_true, decide_eq_true_eq] at hm
            apply hne
            rw [← hm.1.1.1.2, hcar.token, ← hm.1.1.1.1, hcar.id]
            rfl
          show r ∈ q
          rw [(completeClaim_eq_of_ok hc).2]
          exact List.mem_filterMap.mpr ⟨r, hr, by simp [completeRecord, hnot]⟩

/-- What a successful `begin_claimed_submit` did. -/
theorem Shared.begin_some {sh sh' : Shared} {p : Process} {start : Option String}
    {snap d : Record} {now lease : ℚ} (h : sh.begin p start snap now lease = (some d, sh')) :
    ∃ identity r, start = some identity ∧ r ∈ sh.queue ∧ exactClaim snap r = true ∧
      d = beginRecord now lease p.pid identity r ∧
      sh' = { sh.write ((Op.beginClaimedSubmit snap now lease p.pid (some identity)).apply
                sh.queue) with
              grants := ⟨p, d.id, snap.claimToken.getD ""⟩ :: sh.grants } ∧
      d ∈ sh'.queue := by
  unfold Shared.begin at h
  rcases beginClaimedSubmit_cases snap now lease p.pid start sh.queue with
    hn | ⟨identity, r, rfl, hf, hs⟩
  · rw [hn] at h; cases h
  · rw [hs] at h
    cases h
    refine ⟨identity, r, rfl, List.mem_of_find?_eq_some hf, List.find?_some hf, rfl, ?_,
      updateFirst_found hf⟩
    simp only [Op.apply, hs]

theorem exactClaim_token {snap r : Record} (h : exactClaim snap r = true) :
    r.claimToken = snap.claimToken := by
  simp only [exactClaim, Bool.and_eq_true, decide_eq_true_eq] at h
  exact h.1.1.1.2

/-- A `begin_claimed_submit` whose new grant is not live, or is that of the holder. -/
theorem Fleet.begin {sh sh' : Shared} (h : Fleet sh) {p : Process} {identity : String}
    {snap d : Record} {now lease : ℚ} {t : String}
    (hb : sh.begin p (some identity) snap now lease = (some d, sh'))
    (ht : snap.claimToken = some t) (htu : t ∈ sh.used) (hp : p ∈ sh.spawned)
    (hheld : ∀ p' snap', (p', snap') ∈ sh.held → snap'.claimToken = some t → p = p')
    (hown : ∀ g r, Live sh g → r ∈ sh.queue → Carries r g → r.id = snap.id →
      g.process = p ∧ identity = p.start)
    (hnew : p = sh.worker ∨ ⟨p, snap.id, t⟩ ∈ sh.grants) :
    Fleet sh' ∧ Evolves sh sh' := by
  obtain ⟨identity', r, hst, hr, hm, hd, hsh, hdq⟩ := Shared.begin_some hb
  cases hst
  have hdid : d.id = snap.id := by rw [hd]; exact exactClaim_id hm
  have hrid : r.id = snap.id := exactClaim_id hm
  have hrtok : r.claimToken = some t := (exactClaim_token hm).trans ht
  rw [ht, Option.getD_some, hdid] at hsh
  have hlive : ∀ g, Live sh' g → Live sh g := by
    intro g hg
    rw [hsh] at hg
    refine ⟨?_, hg.running, hg.other, hg.pending⟩
    rcases List.mem_cons.mp hg.granted with heq | hmem
    · -- the new grant is the worker's, or the holder had it already
      rcases hnew with hw | hold
      · exact absurd (by rw [heq]; exact hw) hg.other
      · exact heq ▸ hold
    · exact hmem
  -- marking draws neither an ID nor a token
  have hleases : Leases sh' := by
    have := h.leases.write (o := .beginClaimedSubmit snap now lease p.pid (some identity))
      (u := sh.used) (fun _ hx => hx) (fun id hid => by cases hid) (fun t ht => by cases ht)
    rw [hsh]
    exact ⟨this.nodup, this.issued, this.tokens, this.supersededUsed, this.noneSuperseded⟩
  refine ⟨⟨hleases, by rw [hsh]; exact h.worker, by rw [hsh]; exact h.running,
    by rw [hsh]; exact h.pids, ?_, ?_, ?_, ?_⟩, ⟨?_, ?_, ?_⟩⟩
  · intro g hg
    rw [hsh] at hg ⊢
    rcases List.mem_cons.mp hg with heq | hmem
    · rw [heq]
      exact ⟨hp, hrid ▸ h.leases.issued r hr, htu⟩
    · exact h.grants g hmem
  · intro p' snap' hmem
    rw [hsh] at hmem ⊢
    obtain ⟨t', ht', hg⟩ := h.held p' snap' hmem
    exact ⟨t', ht', List.mem_cons_of_mem _ hg⟩
  · intro p' snap' hmem g hg htok
    rw [hsh] at hmem hg
    rcases List.mem_cons.mp hg with heq | hg
    · rw [heq] at htok ⊢
      exact hheld p' snap' hmem htok
    · exact h.owner p' snap' hmem g hg htok
  · intro g hg
    have hl := hlive g hg
    obtain ⟨r₀, hr₀, hcar⟩ := h.claims g hl
    by_cases hid : r₀.id = snap.id
    · -- the record is the one that was marked, and its claim is the holder's own
      obtain ⟨hgp, hident⟩ := hown g r₀ hl hr₀ hcar hid
      have heq : r₀ = r := eq_of_key_eq h.leases.nodup hr₀ hr (hid.trans hrid.symm)
      refine ⟨d, hdq, ?_⟩
      rw [hd, ← heq]
      exact ⟨hcar.id, hcar.token, rfl, by rw [hgp]; rfl, by rw [hgp, ← hident]; rfl⟩
    · refine ⟨r₀, ?_, hcar⟩
      rw [hsh]
      exact apply_elsewhere (o := .beginClaimedSubmit snap now lease p.pid (some identity))
        rfl hr₀ hid
  · intro x hx
    rw [hsh]
    exact hx
  · intro g hg
    exact Or.inl (hlive g hg)
  · intro p' snap' t' hmem ht'
    rw [hsh] at hmem
    exact Or.inr ⟨p', snap', hmem, ht'⟩

/-- A new claimed snapshot shows its claim. -/
theorem enqueueClaimed_claimed {cfg : Config} {a : EnqueueArgs} {lease : Option ℚ}
    {ctx : CallContext} {q q' : Queue} {snap : Record}
    (h : enqueueClaimed cfg a lease ctx q = (.claimed snap, q')) :
    snap ∈ q' ∧ snap.id = ctx.recordId ∧ snap.claimToken = some ctx.token ∧
      snap.submissionState = some .producerClaimed ∧ snap.producerPid = some ctx.pid ∧
      snap.producerProcessStartId = ctx.startIdentity := by
  unfold enqueueClaimed at h
  simp only at h
  split_ifs at h with hlease
  · cases h
  unfold enqueue at h
  cases hs : enqueueSide cfg (claimedArgs cfg a lease) ctx with
  | none =>
      simp only [claimedArgs] at hs
      simp only [hs] at h
      cases h
  | some side =>
      simp only [claimedArgs] at hs
      simp only [hs] at h
      split at h
      · cases h
      · split at h
        · cases h
        · split at h
          · cases h
          · simp only [Option.isSome_some, if_true, Prod.mk.injEq, Enqueued.claimed.injEq] at h
            obtain ⟨rfl, rfl⟩ := h
            exact ⟨by simp, rfl, rfl, rfl, rfl, rfl⟩

/-! ## Steps of the other processes -/

theorem Shared.drawn_fresh (sh : Shared) (uuid : UuidSource) (p : Process) :
    (sh.contextFor uuid p).recordId ∉ sh.used ∧ (sh.contextFor uuid p).token ∉ sh.used ∧
      (sh.contextFor uuid p).recordId ∈ sh.drawn uuid ∧
      (sh.contextFor uuid p).token ∈ sh.drawn uuid ∧ ∀ x ∈ sh.used, x ∈ sh.drawn uuid := by
  refine ⟨uuid.fresh _, ?_, by simp [Shared.drawn, Shared.contextFor],
    by simp [Shared.drawn, Shared.contextFor], fun x hx => by simp [Shared.drawn, hx]⟩
  intro hmem
  exact uuid.fresh (uuid.next sh.used :: sh.used) (List.mem_cons_of_mem _ hmem)

/-- A new claim under a new token, shown by its record. -/
theorem Fleet.grant {sh : Shared} (h : Fleet sh) {p : Process} {snap : Record} {t : String}
    (hq : snap ∈ sh.queue) (htok : snap.claimToken = some t)
    (hstate : snap.submissionState = some .producerClaimed)
    (hpid : snap.producerPid = some p.pid) (hstart : snap.producerProcessStartId = some p.start)
    (hp : p ∈ sh.spawned) (hused : t ∈ sh.used) (hnew : ∀ g ∈ sh.grants, g.token ≠ t) :
    Fleet { sh with held := (p, snap) :: sh.held, grants := ⟨p, snap.id, t⟩ :: sh.grants } where
  leases := ⟨h.leases.nodup, h.leases.issued, h.leases.tokens, h.leases.supersededUsed,
    h.leases.noneSuperseded⟩
  worker := h.worker
  running := h.running
  pids := h.pids
  grants := by
    intro g hg
    rcases List.mem_cons.mp hg with heq | hmem
    · rw [heq]
      exact ⟨hp, h.leases.issued snap hq, hused⟩
    · exact h.grants g hmem
  held := by
    intro p' snap' hmem
    rcases List.mem_cons.mp hmem with heq | hmem
    · cases heq
      exact ⟨t, htok, List.mem_cons_self⟩
    · obtain ⟨t, ht, hg⟩ := h.held p' snap' hmem
      exact ⟨t, ht, List.mem_cons_of_mem _ hg⟩
  owner := by
    intro p' snap' hmem g hg ht
    rcases List.mem_cons.mp hmem with heq | hmem
    · cases heq
      rcases List.mem_cons.mp hg with hgeq | hg
      · rw [hgeq]
      · rw [htok, Option.some.injEq] at ht
        exact absurd ht.symm (hnew g hg)
    · rcases List.mem_cons.mp hg with hgeq | hg
      · -- an old snapshot is under an old token
        obtain ⟨t, ht', hgrant⟩ := h.held p' snap' hmem
        rw [hgeq] at ht
        rw [ht', Option.some.injEq] at ht
        exact absurd ht (hnew _ hgrant)
      · exact h.owner p' snap' hmem g hg ht
  claims := by
    intro g hg
    rcases List.mem_cons.mp hg.granted with heq | hmem
    · refine ⟨snap, hq, ?_⟩
      rw [heq]
      exact ⟨rfl, htok, hstate, hpid, hstart⟩
    · exact h.claims g ⟨hmem, hg.running, hg.other, hg.pending⟩

/-- A holder may renew its own mark. -/
theorem Fleet.beginHeld {sh sh' : Shared} (h : Fleet sh) {p : Process} {snap d : Record}
    {now lease : ℚ} (hmem : (p, snap) ∈ sh.held) (hp : p ∈ sh.spawned)
    (hb : sh.begin p (some p.start) snap now lease = (some d, sh')) :
    Fleet { sh' with held := (p, d) :: sh'.held } ∧
      Evolves sh { sh' with held := (p, d) :: sh'.held } := by
  obtain ⟨t, ht, hgrant⟩ := h.held p snap hmem
  obtain ⟨identity, r, hst, hr, hm, hd, hsh, -⟩ := Shared.begin_some hb
  have hrtok : r.claimToken = some t := (exactClaim_token hm).trans ht
  have hdid : d.id = snap.id := by rw [hd]; exact exactClaim_id hm
  have hdtok : d.claimToken = some t := by rw [hd]; exact hrtok
  have hheld' : sh'.held = sh.held := by rw [hsh]; rfl
  obtain ⟨hfleet, hev⟩ := h.begin hb ht (h.grants _ hgrant).2.2 hp
    (fun p' snap' hmem' ht' => h.owner p' snap' hmem' _ hgrant ht')
    (fun g r₀ hl hr₀ hcar hid => by
      have heq : r₀ = r := eq_of_key_eq h.leases.nodup hr₀ hr (hid.trans (exactClaim_id hm).symm)
      have htok : snap.claimToken = some g.token := by
        rw [ht, ← hrtok, ← heq, hcar.token]
      exact ⟨h.owner p snap hmem g hl.granted htok, rfl⟩)
    (Or.inr hgrant)
  have hgrant' : ⟨p, snap.id, t⟩ ∈ sh'.grants := by
    rw [hsh]
    exact List.mem_cons_of_mem _ hgrant
  have hlive : ∀ g, Live { sh' with held := (p, d) :: sh'.held } g → Live sh' g :=
    fun g hg => ⟨hg.granted, hg.running, hg.other, hg.pending⟩
  refine ⟨⟨⟨hfleet.leases.nodup, hfleet.leases.issued, hfleet.leases.tokens,
    hfleet.leases.supersededUsed, hfleet.leases.noneSuperseded⟩, hfleet.worker, hfleet.running,
    hfleet.pids, hfleet.grants, ?_, ?_, fun g hg => hfleet.claims g (hlive g hg)⟩,
    ⟨hev.used, fun g hg => hev.live g (hlive g hg), ?_⟩⟩
  · intro p' snap' hmem'
    rcases List.mem_cons.mp hmem' with heq | hmem'
    · cases heq
      exact ⟨t, hdtok, hdid ▸ hgrant'⟩
    · exact hfleet.held p' snap' hmem'
  · intro p' snap' hmem' g hg htok
    rcases List.mem_cons.mp hmem' with heq | hmem'
    · cases heq
      exact hfleet.owner p snap (hheld' ▸ hmem) g hg (ht.trans (hdtok.symm.trans htok))
    · exact hfleet.owner p' snap' hmem' g hg htok
  · intro p' snap' t' hmem' ht'
    rcases List.mem_cons.mp hmem' with heq | hmem'
    · cases heq
      exact Or.inr ⟨p, snap, hmem, ht.trans (hdtok.symm.trans ht')⟩
    · exact hev.held p' snap' t' hmem' ht'

/-- One step of another process keeps the invariant. -/
theorem EnvAction.fleet (cfg : Config) (uuid : UuidSource) (act : EnvAction) {sh : Shared}
    (h : Fleet sh) : Fleet (act.apply cfg uuid sh) ∧ Evolves sh (act.apply cfg uuid sh) := by
  cases act with
  | spawn p =>
      simp only [EnvAction.apply]
      split_ifs with hold
      · exact ⟨h, Evolves.refl sh⟩
      · have hlive : ∀ g, Live { sh with spawned := p :: sh.spawned, running := p :: sh.running } g →
            Live sh g := by
          intro g hg
          refine ⟨hg.granted, ?_, hg.other, hg.pending⟩
          rcases List.mem_cons.mp hg.running with heq | hmem
          · -- a new process has no grants
            exact absurd (Or.inl (heq ▸ (h.grants g hg.granted).1)) hold
          · exact hmem
        refine ⟨⟨⟨h.leases.nodup, h.leases.issued, h.leases.tokens, h.leases.supersededUsed,
          h.leases.noneSuperseded⟩, List.mem_cons_of_mem _ h.worker, ?_, ?_, ?_, h.held, h.owner,
          fun g hg => h.claims g (hlive g hg)⟩, ⟨fun _ hx => hx, fun g hg => Or.inl (hlive g hg),
          fun p snap _ hmem ht => Or.inr ⟨p, snap, hmem, ht⟩⟩⟩
        · intro p' hp'
          rcases List.mem_cons.mp hp' with heq | hmem
          · exact heq ▸ List.mem_cons_self
          · exact List.mem_cons_of_mem _ (h.running p' hmem)
        · exact List.nodup_cons.mpr ⟨fun hmem => hold (Or.inr hmem), h.pids⟩
        · intro g hg
          exact ⟨List.mem_cons_of_mem _ (h.grants g hg).1, (h.grants g hg).2⟩
  | crash p =>
      simp only [EnvAction.apply]
      split_ifs
      · exact ⟨h, Evolves.refl sh⟩
      · have hlive : ∀ g, Live { sh with running := sh.running.filter (· ≠ p) } g → Live sh g :=
          -- fewer processes run, so fewer grants are live
          fun g hg => ⟨hg.granted, List.mem_of_mem_filter hg.running, hg.other, hg.pending⟩
        exact ⟨⟨⟨h.leases.nodup, h.leases.issued, h.leases.tokens, h.leases.supersededUsed,
          h.leases.noneSuperseded⟩, h.worker,
          fun p' hp' => h.running p' (List.mem_of_mem_filter hp'),
          h.pids.sublist (List.filter_sublist.map _), h.grants, h.held, h.owner,
          fun g hg => h.claims g (hlive g hg)⟩, ⟨fun _ hx => hx, fun g hg => Or.inl (hlive g hg),
          fun p snap _ hmem ht => Or.inr ⟨p, snap, hmem, ht⟩⟩⟩
  | enqueue p a =>
      simp only [EnvAction.apply]
      split_ifs with hp
      · obtain ⟨hid, -, hidd, -, hsub⟩ := sh.drawn_fresh uuid p
        simp only [Bool.and_eq_true, Option.isNone_iff_eq_none] at hp
        -- the record takes an ID that nobody has, and no token
        refine h.write (o := .enqueue cfg a (sh.contextFor uuid p)) hsub ?_ ?_
          (fun g r _ hr hc => hc.stays hr rfl)
        · intro id hmem
          simp only [Op.issues, Op.enqueueCall, List.mem_singleton] at hmem
          exact hmem ▸ ⟨hid, hidd⟩
        · intro t ht
          simp [Op.tokens, hp.2] at ht
      · exact ⟨h, Evolves.refl sh⟩
  | enqueueClaimed p a lease =>
      simp only [EnvAction.apply]
      split_ifs with hp
      · obtain ⟨hid, htok, hidd, htokd, hsub⟩ := sh.drawn_fresh uuid p
        have hwrite := h.write (o := .enqueueClaimed cfg a lease (sh.contextFor uuid p)) hsub
          (fun id hmem => by
            simp only [Op.issues, Op.enqueueCall, List.mem_singleton] at hmem
            exact hmem ▸ ⟨hid, hidd⟩)
          (fun t ht => by
            simp only [Op.tokens, List.mem_singleton] at ht
            exact ht ▸ ⟨htok, htokd⟩)
          (fun g r _ hr hc => hc.stays hr rfl)
        simp only [Op.apply] at hwrite
        cases hres : Outbox.enqueueClaimed cfg a lease (sh.contextFor uuid p) sh.queue with
        | mk res q =>
            rw [hres] at hwrite
            cases res with
            | claimed snap =>
                obtain ⟨hq, hsid, hstok, hstate, hpid, hstart⟩ := enqueueClaimed_claimed hres
                have hrun : p ∈ sh.running := by
                  simp only [Shared.producer, Bool.and_eq_true, decide_eq_true_eq] at hp
                  exact hp.1
                -- the record is born with its claim, which no other process can name
                have hgrant := hwrite.1.grant (p := p)
                  (t := (sh.contextFor uuid p).token) hq hstok hstate hpid hstart
                  (h.running p hrun) htokd
                  (fun g hg heq => htok (heq ▸ (h.grants g hg).2.2))
                refine ⟨hgrant, hsub, ?_, ?_⟩
                · intro g hg
                  rcases List.mem_cons.mp hg.granted with heq | hmem
                  · exact Or.inr (by rw [heq]; exact hsid ▸ hid)
                  · exact Or.inl ⟨hmem, hg.running, hg.other, hg.pending⟩
                · intro p' snap' t hmem ht
                  rcases List.mem_cons.mp hmem with heq | hmem
                  · cases heq
                    rw [hstok, Option.some.injEq] at ht
                    exact Or.inl (ht ▸ htok)
                  · exact Or.inr ⟨p', snap', hmem, ht⟩
            | refused => exact hwrite
            | recordId id => exact hwrite
      · exact ⟨h, Evolves.refl sh⟩
  | begin p snap now lease =>
      simp only [EnvAction.apply]
      split_ifs with hp
      · cases hb : sh.begin p (some p.start) snap now lease with
        | mk res sh' =>
            cases res with
            | none => exact ⟨h, Evolves.refl sh⟩
            | some d =>
                simp only [Bool.and_eq_true, decide_eq_true_eq, Shared.producer] at hp
                -- another process marks only what it has claimed itself
                exact h.beginHeld hp.2 (h.running p hp.1.1) hb
      · exact ⟨h, Evolves.refl sh⟩
  | submit p snap => exact ⟨h, Evolves.refl sh⟩
  | complete p snap c =>
      simp only [EnvAction.apply]
      split_ifs with hp
      · cases hc : sh.complete snap c with
        | error e => exact ⟨h, Evolves.refl sh⟩
        | ok r => exact h.complete hc
      · exact ⟨h, Evolves.refl sh⟩

/-! ## Facts the others cannot disturb -/

/-- A crash of the worker itself. -/
theorem Fleet.crashWorker {sh : Shared} (h : Fleet sh) :
    Fleet { sh with running := sh.running.filter (· ≠ sh.worker) } ∧
      Evolves sh { sh with running := sh.running.filter (· ≠ sh.worker) } := by
  have hlive : ∀ g, Live { sh with running := sh.running.filter (· ≠ sh.worker) } g → Live sh g :=
    fun g hg => ⟨hg.granted, List.mem_of_mem_filter hg.running, hg.other, hg.pending⟩
  exact ⟨⟨⟨h.leases.nodup, h.leases.issued, h.leases.tokens, h.leases.supersededUsed,
    h.leases.noneSuperseded⟩, h.worker, fun p' hp' => h.running p' (List.mem_of_mem_filter hp'),
    h.pids.sublist (List.filter_sublist.map _), h.grants, h.held, h.owner, fun g hg => h.claims g (hlive g hg)⟩,
    ⟨fun _ hx => hx, fun g hg => Or.inl (hlive g hg),
      fun p snap _ hmem ht => Or.inr ⟨p, snap, hmem, ht⟩⟩⟩

theorem takeTurn_fleet (S : Setup) (turn : Turn) {sh : Shared} (h : Fleet sh) :
    Fleet (takeTurn S turn sh) ∧ Evolves sh (takeTurn S turn sh) := by
  unfold takeTurn
  generalize turn.actions = actions
  induction actions generalizing sh with
  | nil => exact ⟨h, Evolves.refl sh⟩
  | cons act rest ih =>
      obtain ⟨hf, hev⟩ := act.fleet S.cfg S.uuid h
      obtain ⟨hf', hev'⟩ := ih hf
      exact ⟨hf', hev.trans hev'⟩

def Stable (F : Shared → Prop) : Prop := ∀ sh sh', Fleet sh → Evolves sh sh' → F sh → F sh'

/-- No live producer holds a claim on the record. -/
def Reserved (id : String) (sh : Shared) : Prop :=
  id ∈ sh.used ∧ ∀ g, Live sh g → g.recordId ≠ id

theorem Reserved.stable (id : String) : Stable (Reserved id) := by
  rintro sh sh' - hev ⟨hu, hr⟩
  refine ⟨hev.used id hu, ?_⟩
  intro g hg heq
  rcases hev.live g hg with hl | hn
  · exact hr g hl heq
  · exact hn (heq ▸ hu)

/-- The token is in no producer's memory. -/
def OwnToken (t : String) (sh : Shared) : Prop :=
  t ∈ sh.used ∧ ∀ p snap, (p, snap) ∈ sh.held → snap.claimToken ≠ some t

theorem OwnToken.stable (t : String) : Stable (OwnToken t) := by
  rintro sh sh' - hev ⟨hu, hh⟩
  refine ⟨hev.used t hu, ?_⟩
  intro p snap hmem ht
  rcases hev.held p snap t hmem ht with hn | ⟨p', snap', hmem', ht'⟩
  · exact hn hu
  · exact hh p' snap' hmem' ht'

/-- The snapshots the worker leased are its own to submit. -/
def Owned (l : List Record) (sh : Shared) : Prop :=
  ∀ r ∈ l, Reserved r.id sh ∧ ∃ t, r.claimToken = some t ∧ OwnToken t sh

theorem Owned.stable (l : List Record) : Stable (Owned l) := by
  intro sh sh' hf hev h r hr
  obtain ⟨hres, t, ht, hown⟩ := h r hr
  exact ⟨Reserved.stable r.id sh sh' hf hev hres, t, ht, OwnToken.stable t sh sh' hf hev hown⟩

/-- The snapshot shows every live claim on its record. -/
def Known (r : Record) (sh : Shared) : Prop :=
  r.id ∈ sh.used ∧ ∀ g, Live sh g → g.recordId = r.id → Carries r g

theorem Known.stable (r : Record) : Stable (Known r) := by
  rintro sh sh' - hev ⟨hu, hk⟩
  refine ⟨hev.used r.id hu, ?_⟩
  intro g hg heq
  rcases hev.live g hg with hl | hn
  · exact hk g hl heq
  · exact absurd (heq ▸ hu) hn

theorem known_of_mem {sh : Shared} (h : Fleet sh) {r : Record} (hr : r ∈ sh.queue) :
    Known r sh := by
  refine ⟨h.leases.issued r hr, ?_⟩
  intro g hg heq
  obtain ⟨r', hr', hc⟩ := h.claims g hg
  rwa [eq_of_key_eq h.leases.nodup hr hr' (heq.symm.trans hc.id.symm)]

theorem Stable.and {F G : Shared → Prop} (hF : Stable F) (hG : Stable G) :
    Stable (fun sh => F sh ∧ G sh) :=
  fun sh sh' hf hev h => ⟨hF sh sh' hf hev h.1, hG sh sh' hf hev h.2⟩

theorem Stable.true : Stable (fun _ => True) := fun _ _ _ _ _ => trivial

/-! ## The worker keeps the invariant -/

/-- At the moment of the submit no running producer holds an uncompleted claim. -/
def NoOverlap (s : Submitted) : Prop :=
  ∀ g ∈ s.scene.grants, g.recordId = s.record.id → g.process ∈ s.scene.running →
    g.process ≠ s.scene.worker → (g.recordId, g.token) ∈ s.scene.completed

def Sound (w : World) : Prop := Fleet w.shared ∧ ∀ s ∈ submits w.log, NoOverlap s

section Worker

variable {S : Setup} {F : Shared → Prop} (hF : Stable F)
include hF

theorem interleave_sound : Keeps (fun w => Sound w ∧ F w.shared) (interleave S) := by
  rintro w ⟨⟨hf, hlog⟩, hFw⟩
  unfold interleave
  cases w.schedule with
  | nil => exact ⟨⟨hf, hlog⟩, hFw⟩
  | cons turn rest =>
      obtain ⟨hf', hev⟩ := takeTurn_fleet S turn hf
      simp only
      split_ifs
      · obtain ⟨hf'', hev'⟩ := hf'.crashWorker
        exact ⟨⟨hf'', hlog⟩, hF _ _ hf (hev.trans hev') hFw⟩
      · exact ⟨⟨hf', hlog⟩, hF _ _ hf hev hFw⟩

/-- A locked section: what its body does, and what is then known. -/
theorem locked_sound {α : Type} {body : Shared → Except String (α × Shared)}
    {R : α → Shared → Prop}
    (hbody : ∀ sh a sh', Fleet sh → F sh → body sh = .ok (a, sh') →
      Fleet sh' ∧ Evolves sh sh' ∧ R a sh') :
    Triple (fun w => Sound w ∧ F w.shared) (locked S body)
      (fun a w => (Sound w ∧ F w.shared) ∧ R a w.shared) (fun _ w => Sound w ∧ F w.shared) := by
  refine Triple.bind (interleave_sound hF) (fun _ => ?_)
  rintro w ⟨⟨hf, hlog⟩, hFw⟩
  dsimp only
  cases hb : body w.shared with
  | error e => exact ⟨⟨hf, hlog⟩, hFw⟩
  | ok p =>
      obtain ⟨hf', hev, hR⟩ := hbody w.shared p.1 p.2 hf hFw hb
      exact ⟨⟨⟨hf', hlog⟩, hF _ _ hf hev hFw⟩, hR⟩

theorem locked_keeps {α : Type} {body : Shared → Except String (α × Shared)}
    (hbody : ∀ sh a sh', Fleet sh → F sh → body sh = .ok (a, sh') → Fleet sh' ∧ Evolves sh sh') :
    Keeps (fun w => Sound w ∧ F w.shared) (locked S body) := by
  refine (locked_sound hF (R := fun _ _ => True) ?_).weaken (fun _ _ h => h.1)
  intro sh a sh' hf hFsh hb
  obtain ⟨hf', hev⟩ := hbody sh a sh' hf hFsh hb
  exact ⟨hf', hev, trivial⟩

theorem ask_keeps {α : Type} {call : Nat → α} {event : α → Event}
    (he : ∀ a, (event a).submitted = none) :
    Keeps (fun w => Sound w ∧ F w.shared) (ask S call event) := by
  refine Triple.bind (interleave_sound hF) (fun _ => ?_)
  rintro w ⟨⟨hf, hlog⟩, hFw⟩
  refine ⟨⟨hf, ?_⟩, hFw⟩
  rw [submits_cons_none (he _)]
  exact hlog

theorem providerName_keeps (r : Record) :
    Keeps (fun w => Sound w ∧ F w.shared) (providerName S r) := by
  unfold providerName
  split_ifs
  · exact Keeps.pure _
  · split
    · exact Keeps.pure _
    · refine Keeps.bind (ask_keeps hF (fun _ => rfl)) (fun answer => ?_)
      refine Keeps.bind ?_ (fun _ => Keeps.pure _)
      cases answer with
      | ok name => exact Keeps.pure _
      | error e => exact Keeps.throw _

theorem reconcileClientOrder_keeps (symbol : String) (cid provider : Option String) :
    Keeps (fun w => Sound w ∧ F w.shared) (reconcileClientOrder S symbol cid provider) := by
  unfold reconcileClientOrder
  split
  · split_ifs
    · exact Keeps.pure _
    · exact Keeps.bind (ask_keeps hF (fun _ => rfl)) (fun _ => Keeps.pure _)
  · exact Keeps.pure _

theorem capabilitiesOf_keeps (symbol : String) (provider : Option String) :
    Keeps (fun w => Sound w ∧ F w.shared) (capabilitiesOf S symbol provider) := by
  unfold capabilitiesOf
  split
  · exact Keeps.pure _
  · refine Keeps.bind (ask_keeps hF (fun _ => rfl)) (fun answer => ?_)
    cases answer with
    | ok declared => exact Keeps.pure _
    | error e => exact Keeps.pure _

theorem completeSection_keeps (claimed : Record) (c : CompleteArgs) :
    Keeps (fun w => Sound w ∧ F w.shared) (completeSection S claimed c) :=
  locked_keeps hF (fun _ _ _ hf _ hb => hf.complete hb)

theorem advanceSection_keeps (claimed : Record) (st : OrderStatus) (now : ℚ) :
    Keeps (fun w => Sound w ∧ F w.shared) (advanceSection S claimed st now) := by
  refine locked_keeps hF (fun sh t sh' hf _ hb => ?_)
  split_ifs at hb
  cases hc : sh.complete claimed (statusTransition claimed st now).2 with
  | error e => rw [hc] at hb; cases hb
  | ok p =>
      rw [hc] at hb
      cases hb
      exact hf.complete hc

theorem discardSection_keeps (expired : List Record) (now : ℚ) :
    Keeps (fun w => Sound w ∧ F w.shared) (discardSection S expired now) := by
  refine locked_keeps hF (fun sh gone sh' hf _ hb => ?_)
  cases hd : discardExpired S.cfg expired now sh.queue with
  | error e => rw [hd] at hb; cases hb
  | ok p =>
      rw [hd] at hb
      cases hb
      have hq : p.2 = (Op.discardExpired S.cfg expired now).apply sh.queue := by
        simp only [Op.apply, hd, queueAfter]
      rw [hq]
      exact hf.write (o := .discardExpired S.cfg expired now) (u := sh.used)
        (fun _ hx => hx) (fun id hid => by cases hid) (fun t ht => by cases ht)
        (fun g r _ hr hc => hc.stays hr rfl)

theorem activateSection_keeps {claimed : Record} (hres : ∀ sh, F sh → Reserved claimed.id sh)
    (qty now : ℚ) :
    Keeps (fun w => Sound w ∧ F w.shared) (activateSection S claimed qty now) := by
  refine locked_keeps hF (fun sh act sh' hf hFsh hb => ?_)
  cases hb
  refine hf.write (o := .activate claimed qty now) (u := sh.used) (fun _ hx => hx)
    (fun id hid => by cases hid) (fun t ht => by cases ht) ?_
  intro g r hl hr hc
  refine apply_elsewhere rfl hr ?_
  intro heq
  exact (hres sh hFsh).2 g hl (hc.id.symm.trans heq)

/-- The worker's lease takes only reserved records, and makes them its own. -/
theorem claimSection_sound {ids : List String} (hres : ∀ sh, F sh → ∀ id ∈ ids, Reserved id sh)
    (now : ℚ) :
    Triple (fun w => Sound w ∧ F w.shared) (claimSection S ids now)
      (fun claimed w => (Sound w ∧ F w.shared) ∧ Owned claimed w.shared)
      (fun _ w => Sound w ∧ F w.shared) := by
  refine locked_sound hF (fun sh claimed sh' hf hFsh hb => ?_)
  split_ifs at hb with hempty
  · cases hb
    exact ⟨hf, Evolves.refl sh, fun r hr => by cases hr⟩
  · have hlease : ¬ S.cfg.claimLeaseSec ≤ 0 := not_le.mpr S.cfg.lease_pos
    have hfresh := S.uuid.fresh sh.used
    have hclaim : claim ids now S.cfg.claimLeaseSec (S.uuid.next sh.used) sh.queue
        = .ok ((sh.queue.filter (claimable ids now)).map
              (claimRecord now S.cfg.claimLeaseSec (S.uuid.next sh.used)),
            (Op.claim ids now S.cfg.claimLeaseSec (S.uuid.next sh.used)).apply sh.queue) := by
      simp only [Op.apply, claim, hempty, hlease, if_false, queueAfter]
    rw [hclaim] at hb
    cases hb
    obtain ⟨hf', hev⟩ := hf.write
      (o := .claim ids now S.cfg.claimLeaseSec (S.uuid.next sh.used))
      (u := S.uuid.next sh.used :: sh.used) (fun x hx => List.mem_cons_of_mem _ hx)
      (fun id hid => by cases hid)
      (fun t ht => by
        simp only [Op.tokens, List.mem_singleton] at ht
        rw [ht]
        exact ⟨hfresh, List.mem_cons_self⟩)
      (fun g r hl hr hc => by
        -- a record with a live claim is not among those asked for
        rcases claim_queue ids now S.cfg.claimLeaseSec (S.uuid.next sh.used) sh.queue with h | h
        · simp only [Op.apply, h]
          exact hr
        · simp only [Op.apply, h]
          refine List.mem_map.mpr ⟨r, hr, if_neg ?_⟩
          intro hcl
          simp only [claimable, Bool.and_eq_true, List.contains_eq_mem, decide_eq_true_eq] at hcl
          exact (hres sh hFsh r.id hcl.1).2 g hl hc.id.symm)
    refine ⟨hf', hev, ?_⟩
    intro r hr
    obtain ⟨r₀, hr₀, rfl⟩ := List.mem_map.mp hr
    obtain ⟨-, hcl⟩ := List.mem_filter.mp hr₀
    simp only [claimable, Bool.and_eq_true, List.contains_eq_mem, decide_eq_true_eq] at hcl
    refine ⟨Reserved.stable r₀.id sh _ hf hev (hres sh hFsh r₀.id hcl.1),
      S.uuid.next sh.used, rfl, List.mem_cons_self, ?_⟩
    intro p snap hmem ht
    obtain ⟨t, ht', hg⟩ := hf.held p snap hmem
    rw [ht', Option.some.injEq] at ht
    exact hfresh (ht ▸ (hf.grants _ hg).2.2)

/-- The worker marks only what it owns, and gets the record it asked for. -/
theorem beginSection_sound {r : Record} (how : ∀ sh, F sh → Owned [r] sh) (now : ℚ) :
    Triple (fun w => Sound w ∧ F w.shared) (beginSection S r now)
      (fun marked w => (Sound w ∧ F w.shared) ∧ ∀ d, marked = some d → d.id = r.id)
      (fun _ w => Sound w ∧ F w.shared) := by
  refine Triple.bind (interleave_sound hF) (fun _ => ?_)
  rintro w ⟨⟨hf, hlog⟩, hFw⟩
  obtain ⟨hres, t, ht, htu, hheld⟩ := how w.shared hFw r (by simp)
  cases hb : w.shared.begin w.shared.worker (ownIdentity S w.log.length w.shared) r now
      S.cfg.claimLeaseSec with
  | mk marked sh =>
      simp only [hb]
      cases marked with
      | none =>
          have hsh : sh = w.shared := by
            unfold Shared.begin at hb
            rcases beginClaimedSubmit_cases r now S.cfg.claimLeaseSec w.shared.worker.pid
                (ownIdentity S w.log.length w.shared) w.shared.queue with
              hn | ⟨identity, r₀, -, -, hs⟩
            · rw [hn] at hb; cases hb; rfl
            · rw [hs] at hb; cases hb
          rw [hsh]
          exact ⟨⟨⟨hf, hlog⟩, hFw⟩, fun d h => by cases h⟩
      | some d =>
          obtain ⟨identity, r₀, hst, hr₀, hm, hd, -, -⟩ := Shared.begin_some hb
          rw [hst] at hb
          obtain ⟨hf', hev⟩ := hf.begin hb ht htu hf.worker
            (fun p' snap' hmem ht' => absurd ht' (hheld p' snap' hmem))
            (fun g x hl _ hc hid => absurd (hc.id.symm.trans hid) (hres.2 g hl))
            (Or.inl rfl)
          refine ⟨⟨⟨hf', hlog⟩, hF _ _ hf hev hFw⟩, ?_⟩
          intro d' hd'
          cases hd'
          rw [hd]
          exact exactClaim_id hm

/-- A submit of a reserved record overlaps with nobody. -/
theorem placeOrder_keeps {d : Record} (hres : ∀ sh, F sh → Reserved d.id sh) (call : PlaceCall) :
    Keeps (fun w => Sound w ∧ F w.shared) (placeOrder S d call) := by
  refine Triple.bind (interleave_sound hF) (fun _ => ?_)
  rintro w ⟨⟨hf, hlog⟩, hFw⟩
  refine ⟨⟨hf, ?_⟩, hFw⟩
  intro s hs
  rcases List.mem_cons.mp hs with rfl | hs
  · intro g hg hid hrun hother
    by_contra hopen
    exact (hres w.shared hFw).2 g ⟨hg, hrun, hother, hopen⟩ hid
  · exact hlog s hs

theorem completeThen_keeps (claimed : Record) (c : CompleteArgs) (st : Stats) :
    Keeps (fun w => Sound w ∧ F w.shared) (do
      let _ ← completeSection S claimed c
      pure st) :=
  Keeps.bind (completeSection_keeps hF claimed c) (fun _ => Keeps.pure _)

theorem settle_keeps (now : ℚ) (st : Stats) (r d : Record) (provider : Option String)
    (answer : PlaceAnswer) :
    Keeps (fun w => Sound w ∧ F w.shared) (settle S now st r d provider answer) := by
  unfold settle
  split
  · exact completeThen_keeps hF _ _ _
  · refine Keeps.bind (reconcileClientOrder_keeps hF _ _ _) (fun state => ?_)
    split
    · exact completeThen_keeps hF _ _ _
    · exact completeThen_keeps hF _ _ _

theorem dispatch_keeps {r : Record} (how : ∀ sh, F sh → Owned [r] sh) (now : ℚ) (st : Stats)
    (price : ℚ) (provider : Option String) :
    Keeps (fun w => Sound w ∧ F w.shared) (dispatch S now st r price provider) := by
  unfold dispatch
  refine Triple.bind (beginSection_sound hF how now) (fun marked => ?_)
  cases marked with
  | none => exact Triple.pure (fun w hw => hw.1)
  | some d =>
      rintro w ⟨hw, hd⟩
      have hid : d.id = r.id := hd d rfl
      refine Keeps.bind (placeOrder_keeps hF ?_ _) (fun answer => settle_keeps hF _ _ _ _ _ _) w hw
      intro sh hsh
      rw [hid]
      exact (how sh hsh r (by simp)).1

theorem submitAtPrice_keeps {r : Record} (how : ∀ sh, F sh → Owned [r] sh) (now : ℚ) (st : Stats)
    (provider : Option String) :
    Keeps (fun w => Sound w ∧ F w.shared) (submitAtPrice S now st r provider) := by
  unfold submitAtPrice
  refine Keeps.bind (ask_keeps hF (fun _ => rfl)) (fun answer => ?_)
  split
  · split_ifs
    · exact dispatch_keeps hF how now st _ provider
    · exact completeThen_keeps hF _ _ _
  · exact completeThen_keeps hF _ _ _

theorem retryPending_keeps {r : Record} (how : ∀ sh, F sh → Owned [r] sh) (now : ℚ) (st : Stats)
    (provider : Option String) :
    Keeps (fun w => Sound w ∧ F w.shared) (retryPending S now st r provider) := by
  unfold retryPending
  split_ifs
  · refine Keeps.bind (reconcileClientOrder_keeps hF _ _ _) (fun state => ?_)
    cases state with
    | found order => exact completeThen_keeps hF _ _ _
    | unavailable => exact completeThen_keeps hF _ _ _
    | notFound =>
        refine Keeps.bind ?_ (fun reliable => ?_)
        · exact Keeps.bind (capabilitiesOf_keeps hF _ _) (fun _ => Keeps.pure _)
        · split_ifs
          · exact submitAtPrice_keeps hF how now st provider
          · exact completeThen_keeps hF _ _ _
  · exact submitAtPrice_keeps hF how now st provider

theorem reconcileReplacement_keeps {r : Record} (hres : ∀ sh, F sh → Reserved r.id sh) (now : ℚ)
    (st : Stats) (provider : Option String) :
    Keeps (fun w => Sound w ∧ F w.shared) (reconcileReplacement S now st r provider) := by
  unfold reconcileReplacement
  refine Keeps.bind (ask_keeps hF (fun _ => rfl)) (fun answer => ?_)
  cases answer with
  | error e => exact completeThen_keeps hF _ _ _
  | ok status =>
      simp only
      split_ifs
      · refine Keeps.bind (activateSection_keeps hF hres _ _) (fun activation => ?_)
        split
        · exact completeThen_keeps hF _ _ _
        · exact Keeps.pure _
        · exact completeThen_keeps hF _ _ _
      · exact completeThen_keeps hF _ _ _
      · exact completeThen_keeps hF _ _ _

theorem observeAccepted_keeps (now : ℚ) (st : Stats) (r : Record) (provider : Option String) :
    Keeps (fun w => Sound w ∧ F w.shared) (observeAccepted S now st r provider) := by
  unfold observeAccepted
  refine Keeps.bind (ask_keeps hF (fun _ => rfl)) (fun answer => ?_)
  cases answer with
  | error e => exact completeThen_keeps hF _ _ _
  | ok status => exact Keeps.bind (advanceSection_keeps hF _ _ _) (fun _ => Keeps.pure _)

theorem advanceClaimed_keeps {r : Record} (how : ∀ sh, F sh → Owned [r] sh) (now : ℚ)
    (st : Stats) : Keeps (fun w => Sound w ∧ F w.shared) (advanceClaimed S now st r) := by
  unfold advanceClaimed
  refine Keeps.bind (providerName_keeps hF r) (fun provider => ?_)
  split
  · exact reconcileReplacement_keeps hF (fun sh h => (how sh h r (by simp)).1) now st provider
  · exact observeAccepted_keeps hF now st r provider
  · exact retryPending_keeps hF how now st provider

theorem recoverLive_keeps (now : ℚ) (st : Stats) (r : Record) :
    Keeps (fun w => Sound w ∧ F w.shared) (recoverLive S now st r) := by
  unfold recoverLive
  refine Keeps.bind (providerName_keeps hF r) (fun provider => ?_)
  refine Keeps.bind (reconcileClientOrder_keeps hF _ _ _) (fun state => ?_)
  split
  · exact Keeps.bind (completeSection_keeps hF _ _) (fun _ => Keeps.pure _)
  · exact Keeps.pure _

end Worker

/-! ## Classification sees every live owner -/

/-- `producer_claim_owner_state` reports a running owner as alive: its identity can be read,
its PID being its own while it runs. -/
def SeesRunning (S : Setup) : Prop :=
  ∀ n sh (p : Process), (sh.running.map Process.pid).Nodup → p ∈ sh.running →
    S.procs n sh p.pid = .identity p.start

theorem alive_of_carries {S : Setup} (hS : SeesRunning S) {n : Nat} {sh : Shared}
    (hpids : (sh.running.map Process.pid).Nodup) {r : Record} {g : Grant} (hl : Live sh g) (hc : Carries r g) :
    producerClaimOwnerState (S.procs n sh) r = .alive := by
  obtain ⟨hstrip, hne⟩ := g.process.start_text
  have hpid : g.process.pid ≠ 0 := Nat.pos_iff_ne_zero.mp g.process.pid_pos
  simp [producerClaimOwnerState, hc.pid, hc.start, hstrip, hne, hpid, hS n sh g.process hpids hl.running]

/-- The classes whose records the worker leases. -/
def Class.leasable : Class → Bool
  | .retry => true
  | .observe => true
  | .reconcileCancel => true
  | _ => false

/-- A leasable record has no live owner. -/
theorem classify_sound {S : Setup} (hS : SeesRunning S) {F : Shared → Prop} (hF : Stable F)
    (now : ℚ) {r : Record} (hk : ∀ sh, F sh → Known r sh) :
    Triple (fun w => Sound w ∧ F w.shared) (classify S now r)
      (fun c w => (Sound w ∧ F w.shared) ∧ (c.leasable = true → Reserved r.id w.shared))
      (fun _ w => Sound w ∧ F w.shared) := by
  have hother : ∀ c : Class, c.leasable = false →
      Triple (fun w => Sound w ∧ F w.shared) (pure c : Worker Class)
        (fun c w => (Sound w ∧ F w.shared) ∧ (c.leasable = true → Reserved r.id w.shared))
        (fun _ w => Sound w ∧ F w.shared) := by
    intro c hc
    refine Triple.pure (fun w hw => ⟨hw, fun h => ?_⟩)
    rw [hc] at h
    cases h
  unfold classify
  split_ifs with hexp hclaimed hlease
  · exact hother _ rfl
  · exact hother _ rfl
  · refine Triple.bind (Q := fun owner w => (Sound w ∧ F w.shared) ∧
      (owner ≠ .alive → Reserved r.id w.shared)) ?_ (fun owner => ?_)
    · refine Triple.bind (interleave_sound hF) (fun _ => ?_)
      rintro w ⟨hw, hFw⟩
      refine ⟨⟨hw, hFw⟩, fun hne => ⟨(hk w.shared hFw).1, ?_⟩⟩
      intro g hg heq
      exact hne (alive_of_carries hS hw.1.pids hg ((hk w.shared hFw).2 g hg heq))
    · -- the owner is gone; nobody else gets the claim while the provider is asked
      have hgone : Triple (fun w => Sound w ∧ F w.shared ∧ Reserved r.id w.shared) (do
            let provider ← providerName S r
            let supported ← supportsClientIdReconciliation S r.symbol provider
            if supported then pure (classByLifecycle S.cfg r now) else pure .quarantined)
          (fun c w => (Sound w ∧ F w.shared) ∧ (c.leasable = true → Reserved r.id w.shared))
          (fun _ w => Sound w ∧ F w.shared) := by
        have hboth := hF.and (Reserved.stable r.id)
        have hkeep : Keeps (fun w => Sound w ∧ F w.shared ∧ Reserved r.id w.shared) (do
            let provider ← providerName S r
            let supported ← supportsClientIdReconciliation S r.symbol provider
            if supported then pure (classByLifecycle S.cfg r now) else pure .quarantined) := by
          refine Keeps.bind (providerName_keeps hboth r) (fun provider => ?_)
          refine Keeps.bind ?_ (fun supported => ?_)
          · exact Keeps.bind (capabilitiesOf_keeps hboth _ _) (fun _ => Keeps.pure _)
          · split_ifs
            · exact Keeps.pure _
            · exact Keeps.pure _
        exact hkeep.conseq (fun _ h => h) (fun c w h => ⟨⟨h.1, h.2.1⟩, fun _ => h.2.2⟩)
          (fun _ w h => ⟨h.1, h.2.1⟩)
      cases owner with
      | alive => exact (hother _ rfl).strengthen (fun w h => h.1)
      | unknown => exact (hother _ rfl).strengthen (fun w h => h.1)
      | dead => exact hgone.strengthen (fun w h => ⟨h.1.1, h.1.2, h.2 (by decide)⟩)
      | mismatched => exact hgone.strengthen (fun w h => ⟨h.1.1, h.1.2, h.2 (by decide)⟩)
  · -- an unmarked snapshot shows no claim at all
    refine Triple.pure (fun w hw => ⟨hw, fun _ => ⟨(hk w.shared hw.2).1, ?_⟩⟩)
    intro g hg heq
    exact hclaimed ((hk w.shared hw.2).2 g hg heq).state

theorem Sorted.add_claimIds {s : Sorted} {r : Record} {c : Class} {id : String}
    (h : id ∈ (s.add r c).claimIds) : id ∈ s.claimIds ∨ c.leasable = true ∧ id = r.id := by
  cases c <;> simp only [Sorted.add, Sorted.claimIds, List.map_append, List.map_singleton,
    List.mem_append, List.mem_singleton, Class.leasable] at h ⊢ <;> tauto

theorem classifyAll_sound {S : Setup} (hS : SeesRunning S) (now : ℚ) (snapshot : List Record) :
    Triple (fun w => Sound w ∧ ∀ r ∈ snapshot, Known r w.shared) (classifyAll S now snapshot)
      (fun s w => Sound w ∧ ∀ id ∈ s.claimIds, Reserved id w.shared) (fun _ => Sound) := by
  have hknown : Stable (fun sh => ∀ r ∈ snapshot, Known r sh) :=
    fun sh sh' hf hev h r hr => Known.stable r sh sh' hf hev (h r hr)
  unfold classifyAll
  refine Triple.conseq (Triple.foldlM (E := fun _ => Sound)
    (I := fun _ (s : Sorted) w => Sound w ∧ (∀ r ∈ snapshot, Known r w.shared) ∧
      ∀ id ∈ s.claimIds, Reserved id w.shared) ?_ {})
    (fun w hw => ⟨hw.1, hw.2, fun id hid => by cases hid⟩) (fun s w hw => ⟨hw.1, hw.2.2⟩)
    (fun _ _ h => h)
  intro done r rest acc hl
  have hr : r ∈ snapshot := by rw [hl]; simp
  have hids : Stable (fun sh => ∀ id ∈ acc.claimIds, Reserved id sh) :=
    fun sh sh' hf hev h id hid => Reserved.stable id sh sh' hf hev (h id hid)
  refine Triple.bind ((classify_sound hS (hknown.and hids) now (fun sh h => h.1 r hr)).conseq
    (fun _ h => h) (fun _ _ h => h) (fun _ w h => h.1)) (fun c => ?_)
  refine Triple.pure ?_
  rintro w ⟨⟨hw, hkn, hacc⟩, hc⟩
  refine ⟨hw, hkn, ?_⟩
  intro id hid
  rcases Sorted.add_claimIds hid with hold | ⟨hleas, rfl⟩
  · exact hacc id hold
  · exact hc hleas

/-- A pass keeps the invariant, whatever is interleaved with it and wherever it ends. -/
theorem processOnce_sound {S : Setup} (hS : SeesRunning S) (now : ℚ) :
    Keeps Sound (processOnce S now) := by
  have htrue : Stable (fun _ => True) := Stable.true
  unfold processOnce
  refine Triple.bind (Q := fun snapshot w => Sound w ∧ ∀ r ∈ snapshot, Known r w.shared) ?_
    (fun snapshot => ?_)
  · refine (locked_sound htrue (R := fun (snapshot : Queue) sh => ∀ r ∈ snapshot, Known r sh)
      ?_).conseq (fun w hw => ⟨hw, trivial⟩) (fun _ w hw => ⟨hw.1.1, hw.2⟩) (fun _ w hw => hw.1)
    intro sh q sh' hf _ hb
    unfold loadValidated at hb
    split_ifs at hb
    · cases hb
      exact ⟨hf, Evolves.refl sh, fun r hr => known_of_mem hf hr⟩
    · cases hb
  refine Triple.bind (classifyAll_sound hS now snapshot) (fun sorted => ?_)
  have hids : Stable (fun sh => ∀ id ∈ sorted.claimIds, Reserved id sh) :=
    fun sh sh' hf hev h id hid => Reserved.stable id sh sh' hf hev (h id hid)
  refine Triple.bind ((discardSection_keeps hids sorted.expired now).conseq (fun _ h => h)
    (fun _ _ h => h) (fun _ w h => h.1)) (fun expired => ?_)
  refine Triple.bind ((claimSection_sound hids (fun sh h => h) now).conseq (fun _ h => h)
    (fun claimed w h => (⟨h.1.1, h.2⟩ : Sound w ∧ Owned claimed w.shared)) (fun _ w h => h.1))
    (fun claimed => ?_)
  have hown := Owned.stable claimed
  refine Triple.bind (Q := fun _ w => Sound w ∧ Owned claimed w.shared) ?_ (fun st => ?_)
  · exact (Keeps.foldlM (fun acc r => recoverLive_keeps hown now acc r) _ _).conseq (fun _ h => h)
      (fun _ _ h => h) (fun _ w h => h.1)
  refine Triple.bind (Q := fun _ w => Sound w ∧ Owned claimed w.shared) ?_ (fun st' => ?_)
  · refine (Triple.foldlM (E := fun _ => Sound) (I := fun _ _ w => Sound w ∧ Owned claimed w.shared)
      ?_ st).conseq (fun _ h => h) (fun _ _ h => h) (fun _ _ h => h)
    intro done r rest acc hl
    have hr : r ∈ claimed := by rw [hl]; simp
    refine (advanceClaimed_keeps hown (fun sh h x hx => ?_) now acc).conseq (fun _ h => h)
      (fun _ _ h => h) (fun _ w h => h.1)
    rw [List.mem_singleton] at hx
    exact hx ▸ h r hr
  · refine Triple.bind (Q := fun _ => Sound) ?_ (fun _ => Triple.pure (fun _ h => h))
    refine (locked_keeps htrue (fun sh n sh' hf _ hb => ?_)).conseq (fun w hw => ⟨hw.1, trivial⟩)
      (fun _ w hw => hw.1) (fun _ w hw => hw.1)
    cases hb
    exact ⟨hf, Evolves.refl sh⟩

/-! ## Runs of the fleet -/

/-- What happens between, or as, the passes of the worker. A crash may end a pass at any
boundary, so that every moment between two steps is the end of some run. -/
inductive Happening where
  | others (turn : Turn)
  | pass (now : ℚ) (schedule : List Turn)
  | crashWorker
  | respawn (p : Process)

def World.Initial (w : World) : Prop :=
  w.log = [] ∧ ∃ worker, w.shared =
    { queue := [], used := [], spawned := [worker], running := [worker], worker := worker,
      held := [], grants := [], completed := [], superseded := [] }

def World.Next (S : Setup) (w : World) (e : Happening) (w' : World) : Prop :=
  match e with
  | .others turn => w' = { w with shared := takeTurn S turn w.shared }
  | .pass now schedule =>
      w.shared.worker ∈ w.shared.running ∧
        w' = finalWorld (processOnce S now { w with schedule := schedule })
  | .crashWorker =>
      w' = { w with shared :=
        { w.shared with running := w.shared.running.filter (· ≠ w.shared.worker) } }
  | .respawn p =>
      w.shared.worker ∉ w.shared.running ∧ p ∉ w.shared.spawned ∧
        p.pid ∉ w.shared.running.map Process.pid ∧
        w' = { w with shared :=
          { w.shared with
            worker := p, spawned := p :: w.shared.spawned, running := p :: w.shared.running } }

abbrev World.Reachable (S : Setup) : World → Prop := Reach World.Initial (World.Next S)

/-- A new worker instance has no grants, and its predecessor does not run. -/
theorem Fleet.respawn {sh : Shared} (h : Fleet sh) {p : Process} (hdead : sh.worker ∉ sh.running)
    (hpid : p.pid ∉ sh.running.map Process.pid) :
    Fleet { sh with worker := p, spawned := p :: sh.spawned, running := p :: sh.running } := by
  refine ⟨⟨h.leases.nodup, h.leases.issued, h.leases.tokens, h.leases.supersededUsed,
    h.leases.noneSuperseded⟩, List.mem_cons_self, ?_, List.nodup_cons.mpr ⟨hpid, h.pids⟩, ?_, h.held,
    h.owner, ?_⟩
  · intro p' hp'
    rcases List.mem_cons.mp hp' with heq | hmem
    · exact heq ▸ List.mem_cons_self
    · exact List.mem_cons_of_mem _ (h.running p' hmem)
  · intro g hg
    exact ⟨List.mem_cons_of_mem _ (h.grants g hg).1, (h.grants g hg).2⟩
  · intro g hg
    refine h.claims g ⟨hg.granted, ?_, ?_, hg.pending⟩
    · rcases List.mem_cons.mp hg.running with heq | hmem
      · exact absurd heq hg.other
      · exact hmem
    · intro heq
      rcases List.mem_cons.mp hg.running with hp | hmem
      · exact hg.other hp
      · exact hdead (heq ▸ hmem)

theorem World.Reachable.sound {S : Setup} (hS : SeesRunning S) {w : World} (h : w.Reachable S) :
    Sound w := by
  refine Reach.invariant ?_ ?_ h
  · rintro w ⟨hlog, worker, hsh⟩
    refine ⟨?_, by simp [hlog, submits]⟩
    rw [hsh]
    refine ⟨⟨by simp, by simp, by simp, by simp, by simp⟩, by simp, by simp, by simp, by simp,
      by simp, by simp, ?_⟩
    intro g hg
    cases hg.granted
  · rintro w e w' hw hnext
    cases e with
    | others turn =>
        rw [show w' = { w with shared := takeTurn S turn w.shared } from hnext]
        exact ⟨(takeTurn_fleet S turn hw.1).1, hw.2⟩
    | pass now schedule =>
        rw [hnext.2]
        have hpost := processOnce_sound hS now { w with schedule := schedule } hw
        cases hres : processOnce S now { w with schedule := schedule } with
        | ok st w'' => rw [hres] at hpost; exact hpost
        | error e w'' => rw [hres] at hpost; exact hpost
    | crashWorker =>
        rw [show w' = { w with shared := { w.shared with
          running := w.shared.running.filter (· ≠ w.shared.worker) } } from hnext]
        exact ⟨hw.1.crashWorker.1, hw.2⟩
    | respawn p =>
        obtain ⟨hdead, -, hpid, rfl⟩ := hnext
        exact ⟨hw.1.respawn hdead hpid, hw.2⟩

/-! ## Superseded leases -/

section Superseded

variable {sh : Shared} (h : Leases sh) {snap : Record} {t : String} {k : Nat}
  (ht : snap.claimToken = some t) (hk : snap.claimRevision = some k)
  (hs : ⟨snap.id, t, k⟩ ∈ sh.superseded)
include h ht hk hs

omit hk in
theorem superseded_not_current {r : Record} (hr : r ∈ sh.queue) (hid : r.id = snap.id)
    (htok : r.claimToken = snap.claimToken) (hrev : r.revision = k) : False := by
  refine h.noneSuperseded r hr ⟨snap.id, t, k⟩ ?_ hs
  unfold Record.lease
  rw [htok, ht, hid, hrev]
  rfl

theorem begin_superseded (now lease : ℚ) (pid : Nat) (start : Option String) :
    beginClaimedSubmit snap now lease pid start sh.queue = (none, sh.queue) := by
  rcases beginClaimedSubmit_cases snap now lease pid start sh.queue with hn | ⟨_, r, -, hf, -⟩
  · exact hn
  · have hm := List.find?_some hf
    simp only [exactClaim, Bool.and_eq_true, decide_eq_true_eq] at hm
    refine (superseded_not_current h ht hs (List.mem_of_find?_eq_some hf) hm.1.1.1.1
      hm.1.1.1.2 ?_).elim
    have hrev : (r.revision : Int) = k := by simpa [hk, intOr] using hm.1.1.2
    exact_mod_cast hrev

theorem complete_superseded (c : CompleteArgs) :
    sh.queue.any (sameClaim snap) = false ∧
      sh.queue.filterMap (completeRecord snap c) = sh.queue := by
  have hnone : ∀ r ∈ sh.queue, sameClaim snap r = false := by
    intro r hr
    by_contra hm
    simp only [Bool.not_eq_false, sameClaim, Bool.and_eq_true, decide_eq_true_eq] at hm
    refine superseded_not_current h ht hs hr hm.1.1.1.1 hm.1.1.1.2 ?_
    have hrev : (r.revision : Int) = k := by simpa [hk, intOr] using hm.1.1.2
    exact_mod_cast hrev
  refine ⟨by simpa using hnone, completeClaim_unmatched c hnone⟩

end Superseded

/-! ## The main result -/

/-- **No overlapping dispatch.** In every run, at every submit of the worker no other running
process has a claim on the record that it has not completed; and a lease that has been
superseded begins nothing and completes nothing. -/
theorem no_overlapping_dispatch {S : Setup} (hS : SeesRunning S) {w : World}
    (h : w.Reachable S) :
    (∀ s ∈ submits w.log, ∀ g ∈ s.scene.grants, g.recordId = s.record.id →
      g.process ≠ s.scene.worker → g.process ∈ s.scene.running →
        (g.recordId, g.token) ∈ s.scene.completed) ∧
    ∀ (snap : Record) (t : String) (k : Nat), snap.claimToken = some t →
      snap.claimRevision = some k → ⟨snap.id, t, k⟩ ∈ w.shared.superseded →
      (∀ now lease pid start,
        beginClaimedSubmit snap now lease pid start w.shared.queue = (none, w.shared.queue)) ∧
      ∀ c, reportable c.submissionState = true →
        (c.outcome = .deferred → isNonFailureDeferral c.failureReason = true) →
        completeClaim snap c w.shared.queue = .ok (false, w.shared.queue) := by
  obtain ⟨hfleet, hlog⟩ := h.sound hS
  refine ⟨?_, ?_⟩
  · intro s hs g hg hid hother hrun
    exact hlog s hs g hg hid hrun hother
  · intro snap t k ht hk hs
    refine ⟨begin_superseded hfleet.leases ht hk hs, ?_⟩
    intro c hrep hdef
    -- a superseded token matches no record, so the queue stays
    obtain ⟨hany, hsame⟩ := complete_superseded hfleet.leases ht hk hs c
    rw [completeClaim_ok snap w.shared.queue hrep hdef, hany, hsame]

/-! ## A handover -/

/-- A process table that is read as it is. -/
def tableRead (sh : Shared) (pid : Nat) : ProcRead :=
  match sh.running.find? (fun p => p.pid = pid) with
  | some p => .identity p.start
  | none => .gone

def handoverSetup : Setup where
  cfg := Config.repository
  mkt := sampleMarket acceptingAnswer
  uuid := UuidSource.longest
  procs := fun _ => tableRead

theorem handoverSetup_seesRunning : SeesRunning handoverSetup := by
  intro n sh p hpids hp
  have hfind : sh.running.find? (fun p' => p'.pid = p.pid) = some p := by
    obtain ⟨p₀, hp₀⟩ := Option.isSome_iff_exists.mp
      (List.find?_isSome (p := fun p' : Process => decide (p'.pid = p.pid)).mpr ⟨p, hp, by simp⟩)
    have heq : p₀ = p := eq_of_key_eq hpids (List.mem_of_find?_eq_some hp₀) hp
      (by simpa using List.find?_some hp₀)
    rw [hp₀, heq]
  show tableRead sh p.pid = .identity p.start
  simp only [tableRead, hfind]

/-- The producer of the sample, and the snapshot its `enqueue_claimed` returns. -/
def handoverProducer : Process := ⟨7, "boot-7", by decide, by decide⟩

def handoverSnapshot : Record :=
  { sampleSnapshot with
    id := "u", intentId := "outbox-u", placeKwargs := [("client_order_id", some "OR_u_0")],
    claimToken := some "uu" }

def handoverStart : World where
  shared :=
    { queue := [], used := [], spawned := [sampleWorker],
      running := [sampleWorker],
      worker := sampleWorker,
      held := [], grants := [], completed := [], superseded := [] }
  schedule := []
  log := []

/-- The producer claims its order and defers it. -/
def handoverTurn : Turn where
  actions :=
    [.spawn handoverProducer,
      .enqueueClaimed handoverProducer
        { symbol := "BTCUSDC", side := "SELL", qty := 2, requestedPrice := some 100, now := 10 }
        none,
      .complete handoverProducer handoverSnapshot
        { outcome := .deferred, now := 20, failureReason := some "trend_deferred",
          submissionState := some .refused }]
  crash := false

def handoverDeferred : World :=
  { handoverStart with shared := takeTurn handoverSetup handoverTurn handoverStart.shared }

/-- The worker then submits it, the producer still running. -/
def handoverEnd : World :=
  finalWorld (processOnce handoverSetup 1000 { handoverDeferred with schedule := [] })

theorem handoverEnd_reachable : handoverEnd.Reachable handoverSetup := by
  have h0 : handoverStart.Reachable handoverSetup := Reach.start ⟨rfl, _, rfl⟩
  have h1 : handoverDeferred.Reachable handoverSetup :=
    Reach.step (i := .others handoverTurn) h0 rfl
  exact Reach.step (i := .pass 1000 []) h1 ⟨by decide +kernel, rfl⟩

/-- The one submit is made after the producer's claim is completed, and a second completion
under that claim is refused. -/
theorem handover_does_not_overlap :
    (submits handoverEnd.log).length = 1 ∧
    handoverEnd.shared.grants.any (fun g => g.process = handoverProducer) = true ∧
    (∀ s ∈ submits handoverEnd.log, ∀ g ∈ s.scene.grants, g.recordId = s.record.id →
      g.process ≠ s.scene.worker → g.process ∈ s.scene.running →
        (g.recordId, g.token) ∈ s.scene.completed) ∧
    completeClaim handoverSnapshot { outcome := .failure, now := 30 } handoverEnd.shared.queue =
      .ok (false, handoverEnd.shared.queue) := by
  refine ⟨by decide +kernel, by decide +kernel, ?_, ?_⟩
  · exact (no_overlapping_dispatch handoverSetup_seesRunning handoverEnd_reachable).1
  · exact ((no_overlapping_dispatch handoverSetup_seesRunning handoverEnd_reachable).2
      handoverSnapshot "uu" 0 rfl rfl (by decide +kernel)).2 _ rfl nofun

end TradingFleet.Outbox
