import TradingFleet.Outbox.Retention

set_option autoImplicit false

/-! # An order that may be at its venue

A record stands for such an order (`Standing`) while it carries the client ID the order was sent
with, is not marked refused and no housekeeping path may touch it. Only an operation that is
addressed to the record closes it (`Closes`): a completion with a matching snapshot that removes it,
starts a new revision or reports a refusal, a failure report, or the resolution of a replacement. -/

namespace TradingFleet.Outbox

variable {id cid : String} {op : Op} {r r' : Record} {q : Queue}

/-- The record of an order that was sent under the client ID `cid`. -/
structure Standing (id cid : String) (r : Record) : Prop where
  id : r.id = id
  clientOrderId : r.clientOrderId = some cid
  guarded : Guarded r
  notRefused : r.submissionState ≠ some .refused

/-- The operations that end what a record stands for. -/
inductive Closes : Op → Record → Prop
  | completed {claimed r : Record} {args : CompleteArgs} : sameClaim claimed r = true →
      args.outcome = .success ∨ args.outcome = .retryTerminal ∨
        args.submissionState = some .refused → Closes (.completeClaim claimed args) r
  | failed {recordId : String} {reason clientId : Option String} {now : ℚ} {r : Record} :
      addresses recordId clientId r = true →
      Closes (.markFailure recordId reason now clientId (some .refused)) r
  | replaced {claimed r : Record} {qty now : ℚ} : activationMatch claimed r = true →
      r.lifecycle = .awaitingCancel → Closes (.activate claimed qty now) r

/-! ## What stays of a record -/

theorem setdefault_get {kw : Kwargs} {key value x : String} (h : kw.get key = some x) :
    (kw.setdefault key value).get key = some x := by
  unfold Kwargs.setdefault
  split
  · exact h
  · rename_i hnone
    simp only [Kwargs.get] at h
    cases hlookup : kw.lookup key with
    | none =>
        rw [hlookup] at h
        cases h
    | some v => simp [hlookup] at hnone

theorem appendOrderHistory_placeKwargs (r : Record) (t : ℚ) (st : Option OrderStatus) :
    (appendOrderHistory r t st).placeKwargs = r.placeKwargs ∧
      (appendOrderHistory r t st).submissionState = r.submissionState := by
  unfold appendOrderHistory
  split
  · exact ⟨rfl, rfl⟩
  · split <;> exact ⟨rfl, rfl⟩

/-- An accepted record keeps its client ID. -/
theorem applyAccepted_standing {order : Option OrderPayload} {now : ℚ} {provider : Option String}
    (h : applyAccepted r order now provider = some r') :
    r'.placeKwargs = r.placeKwargs ∧ r'.submissionState = some .accepted := by
  unfold applyAccepted at h
  split at h
  · cases h
  · rw [Option.some.injEq] at h
    rw [← h]
    obtain ⟨hkw, hstate⟩ := appendOrderHistory_placeKwargs _ now none
    exact ⟨hkw, hstate⟩

/-- So does every outcome but a new revision. -/
theorem applyOutcome_standing {claimed : Record} {args : CompleteArgs}
    (hne : args.outcome ≠ .retryTerminal) (h : applyOutcome claimed args r = some r') :
    r'.placeKwargs = r.placeKwargs ∧
      (r'.submissionState = r.submissionState ∨ r'.submissionState = some .accepted) := by
  unfold applyOutcome at h
  split at h
  · cases h
  · cases h
    exact ⟨rfl, .inl rfl⟩
  · split at h
    · rename_i haccepted
      cases h
      obtain ⟨hkw, hstate⟩ := applyAccepted_standing haccepted
      exact ⟨hkw, .inr hstate⟩
    · cases h
      exact ⟨rfl, .inl rfl⟩
  · cases h
    exact ⟨rfl, .inl rfl⟩
  · cases h
    exact ⟨rfl, .inl rfl⟩
  · exact absurd ‹_› hne
  · cases h
    exact ⟨rfl, .inl rfl⟩
  · cases h
    exact ⟨rfl, .inl rfl⟩

theorem finishClaim_standing {args : CompleteArgs} (hne : args.outcome ≠ .retryTerminal) :
    (finishClaim args r).placeKwargs = r.placeKwargs ∧
      ((finishClaim args r).submissionState = r.submissionState ∨
        (finishClaim args r).submissionState = args.submissionState) := by
  unfold finishClaim dropClaim
  split
  · rename_i hstate
    exact ⟨rfl, .inr hstate.symm⟩
  · rw [if_neg hne]
    exact ⟨rfl, .inl rfl⟩

theorem failRecord_standing (reason : Option String) (now : ℚ) (state : Option SubmissionState) :
    (failRecord reason now state r).placeKwargs = r.placeKwargs ∧
      ((failRecord reason now state r).submissionState = r.submissionState ∨
        (failRecord reason now state r).submissionState = state) := by
  unfold failRecord
  cases state with
  | some s => exact ⟨rfl, .inr rfl⟩
  | none =>
      simp only
      split <;> exact ⟨rfl, .inl rfl⟩

/-! ## One operation -/

/-- The record that a change leaves, if it keeps the client ID and marks no refusal. -/
theorem Standing.of_change (h : Standing id cid r) (hc : Change op r r')
    (hcid : r'.clientOrderId = some cid) (hstate : r'.submissionState ≠ some .refused) :
    Standing id cid r' where
  id := hc.id_eq.trans h.id
  clientOrderId := hcid
  guarded := hc.guarded h.guarded hstate
  notRefused := hstate

/-- A change keeps what the record stands for, or closes it. -/
theorem Standing.change (h : Standing id cid r) (hc : Change op r r') :
    Standing id cid r' ∨ Closes op r := by
  have hc' := hc
  have hkept (hkw : r'.placeKwargs = r.placeKwargs) : r'.clientOrderId = some cid := by
    unfold Record.clientOrderId
    rw [hkw]
    exact h.clientOrderId
  cases hc with
  | same => exact .inl h
  | refreshed _ _ hevict =>
      -- a guarded record is not refreshed by a second refusal
      rw [not_evictable_of_guarded (.inr h.guarded)] at hevict
      cases hevict
  | claimed => exact .inl (h.of_change hc' (setdefault_get h.clientOrderId) h.notRefused)
  | begun => exact .inl (h.of_change hc' h.clientOrderId (fun hno => by cases hno))
  | @completed claimed args _ x hsame hrep houtcome =>
      by_cases hcloses : args.outcome = .success ∨ args.outcome = .retryTerminal ∨
          args.submissionState = some .refused
      · exact .inr (.completed hsame hcloses)
      · left
        have hne : args.outcome ≠ .retryTerminal := fun hno => hcloses (.inr (.inl hno))
        obtain ⟨hkw, hstate⟩ := applyOutcome_standing hne houtcome
        obtain ⟨hkw', hstate'⟩ := finishClaim_standing (r := x) hne
        refine h.of_change hc' (hkept (hkw'.trans hkw)) ?_
        intro hrefused
        rcases hstate' with hstate' | hstate'
        · rcases hstate with hstate | hstate
          · exact h.notRefused (by rw [← hstate, ← hstate', hrefused])
          · rw [hstate', hstate] at hrefused
            cases hrefused
        · exact hcloses (.inr (.inr (by rw [← hstate', hrefused])))
  | @failed recordId reason now clientId state _ haddressed _ =>
      by_cases hrefused : state = some .refused
      · subst hrefused
        exact .inr (.failed haddressed)
      · left
        obtain ⟨hkw, hstate⟩ := failRecord_standing (r := r) reason now state
        refine h.of_change hc' (hkept hkw) ?_
        intro hno
        rcases hstate with hstate | hstate
        · exact h.notRefused (by rw [← hstate, hno])
        · exact hrefused (by rw [← hstate, hno])
  | accepted _ haccepted =>
      obtain ⟨hkw, hstate⟩ := applyAccepted_standing haccepted
      refine .inl (h.of_change hc' (hkept hkw) ?_)
      rw [hstate]
      intro hno
      cases hno
  | activated hmatch hlife _ => exact .inr (.replaced hmatch hlife)

/-- **Only an operation that closes the record ends what it stands for.** -/
theorem Standing.step (h : Standing id cid r) (hr : r ∈ q) (op : Op) :
    (∃ r' ∈ op.apply q, Standing id cid r') ∨ Closes op r := by
  rcases apply_keeps op hr with ⟨r', hr', hc⟩ | hd
  · rcases h.change hc with h' | hcloses
    · exact .inl ⟨r', hr', h'⟩
    · exact .inr hcloses
  · right
    cases hd with
    | evicted _ hevict =>
        rw [not_evictable_of_guarded (.inr h.guarded)] at hevict
        cases hevict
    | expired hexpired =>
        rw [not_expired_of_guarded (.inr h.guarded)] at hexpired
        cases hexpired
    | completed hsame hnone =>
        exact .completed hsame ((applyOutcome_none hnone).imp_right (fun h => .inl h.1))
    | resolved hmatch hlife _ => exact .replaced hmatch hlife

end TradingFleet.Outbox
