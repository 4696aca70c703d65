import TradingFleet.Rtrade.Placements

set_option autoImplicit false

/-! # Adoptions

At the start of a bot each open round is merged with the intents that ran ahead of its checkpoint.
What the merge says about an intent depends on that intent and on what was merged before it, so one
fold over the intents carries it: the revisions only grow, a ticket is never lost, and an intent
that counts leaves a ticket or a recovery behind. -/

namespace TradingFleet.Rtrade

open TradingFleet.Buckets TradingFleet.Hoare TradingFleet.Lifecycle

variable {V : Venue} {log : List Event} {pairId : String}

/-! ## Merging one intent -/

/-- The order IDs of the tickets. -/
def ticketIds (c : Pair.Checkpoint) : List String := c.tickets.map Pair.TicketRecord.orderId

/-- What is represented has a ticket. -/
def Merge.Named (m : Merge) : Prop := ∀ id ∈ m.represented, id ∈ ticketIds m.checkpoint

/-- A ticket of the order of an intent. -/
def TicketFor (ids : List String) (found : List (String × Native)) (stored : Stored) : Prop :=
  ∃ orderId ∈ ids, Identifies found stored.clientOrderId stored.orderId orderId

/-- What a merge keeps of the merge before it. -/
structure Merge.Extends (m m' : Merge) : Prop where
  limits : ∀ side, m.checkpoint.limitRevisions side ≤ m'.checkpoint.limitRevisions side
  stop : m.checkpoint.hardStopRevision ≤ m'.checkpoint.hardStopRevision
  pending : m.recoveryPending = true → m'.recoveryPending = true
  tickets : ∀ id ∈ ticketIds m.checkpoint, id ∈ ticketIds m'.checkpoint

theorem Merge.Extends.trans {m m' m'' : Merge} (h : m.Extends m') (h' : m'.Extends m'') :
    m.Extends m'' where
  limits side := (h.limits side).trans (h'.limits side)
  stop := h.stop.trans h'.stop
  pending hp := h'.pending (h.pending hp)
  tickets id hid := h'.tickets id (h.tickets id hid)

/-- Where only the tickets change. -/
theorem Merge.extends_of {m m' : Merge}
    (hlimits : m'.checkpoint.limitRevisions = m.checkpoint.limitRevisions)
    (hstop : m'.checkpoint.hardStopRevision = m.checkpoint.hardStopRevision)
    (hpending : m'.recoveryPending = m.recoveryPending)
    (htickets : ∀ id ∈ ticketIds m.checkpoint, id ∈ ticketIds m'.checkpoint) : m.Extends m' where
  limits _ := hlimits ▸ le_refl _
  stop := hstop ▸ le_refl _
  pending h := hpending.trans h
  tickets := htickets

theorem Merge.Extends.refl (m : Merge) : m.Extends m :=
  Merge.extends_of rfl rfl rfl (fun _ h => h)

/-- What the merge says about an intent. -/
structure Merge.Covers (m : Merge) (found : List (String × Native)) (stored : Stored) : Prop where
  limits : ∀ r, Pair.intentRevision stored.kind "limit" = some r →
    (r.val : Int) ≤ m.checkpoint.limitRevisions stored.side
  stop : ∀ r, Pair.intentRevision stored.kind "hard_stop" = some r →
    (r.val : Int) ≤ m.checkpoint.hardStopRevision
  accounted : stored.refusal = true ∨ m.recoveryPending = true ∨
    TicketFor (ticketIds m.checkpoint) found stored

theorem Merge.Covers.mono {m m' : Merge} {found found' : List (String × Native)} {stored : Stored}
    (h : m.Covers found stored) (hm : m.Extends m') (hfound : found ⊆ found') :
    m'.Covers found' stored where
  limits r hr := (h.limits r hr).trans (hm.limits stored.side)
  stop r hr := (h.stop r hr).trans hm.stop
  accounted := h.accounted.imp_right (Or.imp hm.pending
    (fun ⟨known, hmem, hknown⟩ => ⟨known, hm.tickets known hmem, hknown.mono hfound⟩))

theorem Merge.advance_extends (m : Merge) (side : Pair.Side) (kind : String) :
    m.Extends (m.advance side kind) where
  limits side' := by
    unfold Merge.advance
    cases Pair.intentRevision kind "limit" with
    | none => exact le_refl _
    | some r =>
        dsimp only
        by_cases heq : side' = side
        · subst heq
          rw [Function.update_self]
          exact le_max_left _ _
        · rw [Function.update_of_ne heq]
  stop := by
    unfold Merge.advance
    dsimp only
    split
    · exact le_refl _
    · exact le_max_left _ _
  pending h := h
  tickets _ h := h

theorem Merge.advance_limits {m : Merge} {side : Pair.Side} {kind : String} {r : Pair.Revision}
    (hr : Pair.intentRevision kind "limit" = some r) :
    (r.val : Int) ≤ (m.advance side kind).checkpoint.limitRevisions side := by
  unfold Merge.advance
  simp only [hr]
  rw [Function.update_self]
  exact le_max_right _ _

theorem Merge.advance_stop {m : Merge} {side : Pair.Side} {kind : String} {r : Pair.Revision}
    (hr : Pair.intentRevision kind "hard_stop" = some r) :
    (r.val : Int) ≤ (m.advance side kind).checkpoint.hardStopRevision := by
  unfold Merge.advance
  simp only [hr]
  exact le_max_right _ _

theorem setTicketRevision_ids (orderId : String) (revision : Int)
    (tickets : List Pair.TicketRecord) :
    (setTicketRevision orderId revision tickets).map Pair.TicketRecord.orderId =
      tickets.map Pair.TicketRecord.orderId := by
  induction tickets with
  | nil => rfl
  | cons t rest ih =>
      unfold setTicketRevision
      split
      · rfl
      · rw [List.map_cons, List.map_cons, ih]

theorem Merge.represent_ids (m : Merge) (kind orderId : String) :
    ticketIds (m.represent kind orderId).checkpoint = ticketIds m.checkpoint := by
  have hrevise : (reviseTicket kind orderId m.checkpoint.tickets).map Pair.TicketRecord.orderId =
      ticketIds m.checkpoint := by
    unfold reviseTicket
    split
    · rfl
    · exact setTicketRevision_ids _ _ _
  unfold Merge.represent
  dsimp only
  split
  · exact hrevise
  · exact hrevise

/-- Where the order has a ticket, only the revision of that ticket changes. -/
theorem Merge.represent_same (m : Merge) (kind orderId : String) :
    (m.represent kind orderId).checkpoint.limitRevisions = m.checkpoint.limitRevisions ∧
      (m.represent kind orderId).checkpoint.hardStopRevision = m.checkpoint.hardStopRevision ∧
      (m.represent kind orderId).recoveryPending = m.recoveryPending ∧
      (m.represent kind orderId).represented = m.represented := by
  unfold Merge.represent
  dsimp only
  split
  · exact ⟨rfl, rfl, rfl, rfl⟩
  · exact ⟨rfl, rfl, rfl, rfl⟩

theorem Merge.represent_extends (m : Merge) (kind orderId : String) :
    m.Extends (m.represent kind orderId) := by
  obtain ⟨hlimits, hstop, hpending, -⟩ := m.represent_same kind orderId
  refine Merge.extends_of hlimits hstop hpending (fun id hid => ?_)
  rw [m.represent_ids]
  exact hid

theorem Merge.represent_named {m : Merge} (hm : m.Named) (kind orderId : String) :
    (m.represent kind orderId).Named := by
  obtain ⟨-, -, -, hsame⟩ := m.represent_same kind orderId
  intro id hid
  rw [m.represent_ids]
  exact hm id (hsame ▸ hid)

theorem Merge.wait_extends (m : Merge) (kind message : String) : m.Extends (m.wait kind message) :=
  ⟨fun _ => le_refl _, le_refl _, fun _ => rfl, fun _ h => h⟩

/-- An adopted order has a ticket, and so has all that had one before. -/
theorem Merge.adopt_spec {m : Merge} (hm : m.Named) (kind : String) (ticket : Pair.OrderTicket)
    (snapshot : Pair.OrderSnapshot) :
    m.Extends (m.adopt kind ticket snapshot) ∧ (m.adopt kind ticket snapshot).Named ∧
      ticket.orderId ∈ ticketIds (m.adopt kind ticket snapshot).checkpoint := by
  by_cases hknown : m.represented.contains ticket.orderId = true
  · have hmem : ticket.orderId ∈ ticketIds m.checkpoint := hm _ (by simpa using hknown)
    unfold Merge.adopt
    simp only [hknown, if_true]
    split
    · exact ⟨Merge.extends_of rfl rfl rfl (fun _ h => h), hm, hmem⟩
    · exact ⟨Merge.extends_of rfl rfl rfl (fun _ h => h), hm, hmem⟩
  · -- the order gets a row of its own
    have hids : ∀ row : Pair.TicketRecord, row.orderId = ticket.orderId → ∀ id,
        id ∈ (m.checkpoint.tickets ++ [row]).map Pair.TicketRecord.orderId ↔
          id ∈ ticketIds m.checkpoint ∨ id = ticket.orderId := by
      intro row hrow id
      rw [List.map_append, List.mem_append, List.map_singleton, List.mem_singleton, hrow]
      rfl
    have hnamed : ∀ row : Pair.TicketRecord, row.orderId = ticket.orderId →
        ∀ id ∈ ticket.orderId :: m.represented,
          id ∈ (m.checkpoint.tickets ++ [row]).map Pair.TicketRecord.orderId := by
      intro row hrow id hid
      rcases List.mem_cons.mp hid with heq | hid
      · exact (hids row hrow id).mpr (.inr heq)
      · exact (hids row hrow id).mpr (.inl (hm id hid))
    unfold Merge.adopt
    simp only [hknown, Bool.false_eq_true, if_false]
    split
    · exact ⟨Merge.extends_of rfl rfl rfl (fun id h => (hids _ rfl id).mpr (.inl h)),
        hnamed _ rfl, (hids _ rfl _).mpr (.inr rfl)⟩
    · exact ⟨Merge.extends_of rfl rfl rfl (fun id h => (hids _ rfl id).mpr (.inl h)),
        hnamed _ rfl, (hids _ rfl _).mpr (.inr rfl)⟩

/-- **One intent is merged.** -/
theorem mergeOne_triple {record : PairRecord} (hown : V.own record.pairId = true) {m : Merge}
    (hm : m.Named) {stored : Stored}
    (hfree : stored.refusal = true → Free log record.pairId (slotKey stored.kind stored.side)) :
    Triple (At V log) (mergeOne V record m stored)
      (fun m' w => (m.Extends m' ∧ m'.Named ∧ m'.Covers w.found stored) ∧ At V log w)
      (fun _ => At V log) := by
  have hadvance := m.advance_extends stored.side stored.kind
  have hnamed : (m.advance stored.side stored.kind).Named := hm
  -- whatever extends the advanced merge covers the intent, if it accounts for it
  have hcovers : ∀ m' found, (m.advance stored.side stored.kind).Extends m' →
      (stored.refusal = true ∨ m'.recoveryPending = true ∨
        TicketFor (ticketIds m'.checkpoint) found stored) →
      m.Extends m' ∧ m'.Covers found stored := fun m' found hext haccounted =>
    ⟨hadvance.trans hext, fun r hr => (Merge.advance_limits hr).trans (hext.limits _),
      fun r hr => (Merge.advance_stop hr).trans hext.stop, haccounted⟩
  unfold mergeOne
  dsimp only
  by_cases hrefusal : stored.refusal = true
  · -- what was refused needs no ticket
    rw [if_pos hrefusal]
    refine Triple.bind (persistNone_at (hfree hrefusal)) (fun _ => Triple.pure (fun s hs => ?_))
    obtain ⟨hext, hcov⟩ := hcovers _ s.found (Merge.Extends.refl _) (.inl hrefusal)
    exact ⟨⟨hext, hnamed, hcov⟩, hs⟩
  · rw [if_neg hrefusal]
    cases hknown : stored.orderId.filter
        (fun id => (m.advance stored.side stored.kind).represented.contains id) with
    | some orderId =>
        -- the checkpoint has the order already
        obtain ⟨hstored, hmem⟩ := Option.filter_eq_some_iff.mp hknown
        have hticket : ∀ found, TicketFor (ticketIds ((m.advance stored.side stored.kind).represent
            stored.kind orderId).checkpoint) found stored := by
          refine fun found => ⟨orderId, ?_, .inl hstored⟩
          rw [Merge.represent_ids]
          exact hnamed _ (by simpa using hmem)
        refine Triple.pure (fun s hs => ?_)
        obtain ⟨hext, hcov⟩ := hcovers _ s.found (Merge.represent_extends _ _ _)
          (.inr (.inr (hticket s.found)))
        exact ⟨⟨hext, Merge.represent_named hnamed _ _, hcov⟩, hs⟩
    | none =>
        refine Triple.bind (recoverIntent_triple hown (by simpa using hrefusal))
          (fun result => ?_)
        cases result with
        | error message =>
            refine Triple.pure (fun s hs => ?_)
            obtain ⟨hext, hcov⟩ := hcovers _ s.found (Merge.wait_extends _ stored.kind message)
              (.inr (.inl rfl))
            exact ⟨⟨hext, hnamed, hcov⟩, hs.2⟩
        | ok recovered =>
            obtain ⟨ticket, snapshot⟩ := recovered
            obtain ⟨hadopt, hnamed', hmem⟩ :=
              Merge.adopt_spec hnamed stored.kind ticket snapshot
            refine Triple.pure (fun s hs => ?_)
            obtain ⟨hext, hcov⟩ := hcovers _ s.found hadopt
              (.inr (.inr ⟨ticket.orderId, hmem, hs.1 ticket snapshot rfl⟩))
            exact ⟨⟨hext, hnamed', hcov⟩, hs.2⟩

theorem mergeOne_saw {record : PairRecord} (answers : List (String × Native)) (m : Merge)
    (stored : Stored) : Keeps (Saw answers) (mergeOne V record m stored) := by
  unfold mergeOne
  refine Triple.ite (Keeps.bind (mutate_saw _) (fun _ => Keeps.pure _)) ?_
  cases stored.orderId.filter
      (fun id => (m.advance stored.side stored.kind).represented.contains id) with
  | some orderId => exact Keeps.pure _
  | none =>
      refine Keeps.bind (recoverIntent_saw answers) (fun result => ?_)
      cases result with
      | error message => exact Keeps.pure _
      | ok recovered => exact Keeps.pure _

/-! ## Merging a round -/

/-- The merge is written as one that still waits for a recovery. -/
def Saved.Waits (merged : Saved) : Prop :=
  merged.recoveryPending = true ∧
    (merged.checkpoint.phase = .startupRecovery ∨ merged.checkpoint.phase = .hardStopRecovery)

/-- What a merged checkpoint says about an intent. -/
structure Saved.Covers (merged : Saved) (found : List (String × Native)) (stored : Stored) :
    Prop where
  limits : ∀ r, Pair.intentRevision stored.kind "limit" = some r →
    (r.val : Int) ≤ merged.checkpoint.limitRevisions stored.side
  stop : ∀ r, Pair.intentRevision stored.kind "hard_stop" = some r →
    (r.val : Int) ≤ merged.checkpoint.hardStopRevision
  accounted : stored.refusal = true ∨ merged.Waits ∨
    TicketFor (ticketIds merged.checkpoint) found stored

theorem Merge.Covers.saved {m : Merge} {found : List (String × Native)} {stored : Stored}
    (h : m.Covers found stored) : m.saved.Covers found stored := by
  unfold Merge.saved
  by_cases hpending : m.recoveryPending = true
  · rw [if_pos hpending]
    refine ⟨h.limits, h.stop, .inr (.inl ⟨hpending, ?_⟩)⟩
    show (if m.pendingHardStop then Pair.Phase.hardStopRecovery else .startupRecovery) = _ ∨ _
    split
    · exact .inr rfl
    · exact .inl rfl
  · rw [if_neg hpending]
    refine ⟨h.limits, h.stop, ?_⟩
    rcases h.accounted with hrefusal | hwaits | htickets
    · exact .inl hrefusal
    · exact absurd hwaits hpending
    · exact .inr (.inr htickets)

/-- **A merge covers every intent of the round.** -/
theorem mergeCheckpointIntents_triple {record : PairRecord} (hown : V.own record.pairId = true)
    (hreads : Reads log record.pairId record) (state : Pair.Checkpoint) :
    Triple (At V log) (mergeCheckpointIntents V record state)
      (fun merged w => (∀ e ∈ record.intents, merged.Covers w.found e.2) ∧ At V log w)
      (fun _ => At V log) := by
  have hcheck : ∀ text revision, Keeps (At V log) (checkRevision text revision) := by
    intro text revision
    unfold checkRevision
    exact Triple.ite (Keeps.pure _) (raise_at _)
  unfold mergeCheckpointIntents
  refine Triple.bind (hcheck _ _) (fun _ => Triple.bind (hcheck _ _) (fun _ => ?_))
  refine Triple.bind (hcheck _ _) (fun _ => ?_)
  -- the intents merged so far are covered
  have hfold : ∀ m : Merge, Triple
      (fun w => (m.Named ∧ ∀ b ∈ ([] : List Stored), m.Covers w.found b) ∧ At V log w)
      ((record.intents.map Prod.snd).foldlM (mergeOne V record) m)
      (fun m' w => (m'.Named ∧ ∀ b ∈ record.intents.map Prod.snd, m'.Covers w.found b) ∧
        At V log w)
      (fun _ => At V log) := by
    refine Triple.foldlM (I := fun done (m : Merge) w =>
      (m.Named ∧ ∀ b ∈ done, m.Covers w.found b) ∧ At V log w) (fun done b rest m hl => ?_)
    intro w₀ hdone
    have hmem : b ∈ record.intents.map Prod.snd := by
      rw [hl]
      exact List.mem_append_right _ List.mem_cons_self
    obtain ⟨e, he, rfl⟩ := List.mem_map.mp hmem
    have hone := @mergeOne_triple V log _ hown m hdone.1.1 e.2 (fun hrefusal => by
      rw [← hreads.slots e he]
      exact hreads.refused e he hrefusal)
    -- what the venue answered for the intents before is not forgotten
    refine (hone.and (mergeOne_saw w₀.found m e.2)).conseq (fun _ h => h) (fun m' w hw => ?_)
      (fun _ _ h => h.1) w₀ ⟨hdone.2, List.Subset.refl _⟩
    obtain ⟨⟨⟨hext, hnamed, hcovers⟩, hat⟩, hsaw⟩ := hw
    refine ⟨⟨hnamed, fun b hb => ?_⟩, hat⟩
    rcases List.mem_append.mp hb with hb | hb
    · exact (hdone.1.2 b hb).mono hext hsaw
    · rw [List.mem_singleton.mp hb]
      exact hcovers
  refine Triple.bind ((hfold _).strengthen
    (fun w hw => ⟨⟨fun _ hid => hid, List.forall_mem_nil _⟩, hw⟩)) (fun m => ?_)
  refine Triple.bind (Q := fun _ w => (m.Named ∧
    ∀ b ∈ record.intents.map Prod.snd, m.Covers w.found b) ∧ At V log w)
    (Triple.updates (fun _ hw => hw)) (fun _ => Triple.pure (fun s hs => ⟨?_, hs.2⟩))
  exact fun e he => (hs.1.2 e.2 (List.mem_map.mpr ⟨e, he, rfl⟩)).saved

/-! ## Adopting a round -/

theorem slotKey_inj {kind kind' : String} {side side' : Pair.Side}
    (h : slotKey kind side = slotKey kind' side') : kind = kind' ∧ side = side' := by
  unfold slotKey at h
  have hlist := congrArg String.toList h
  rw [String.toList_append, String.toList_append, String.toList_append,
    String.toList_append] at hlist
  have hlast := congrArg List.reverse hlist
  rw [List.reverse_append, List.reverse_append] at hlast
  have hside : side = side' := by
    cases side with
    | buy =>
        cases side' with
        | buy => rfl
        | sell => simp [Pair.Side.text] at hlast
    | sell =>
        cases side' with
        | buy => simp [Pair.Side.text] at hlast
        | sell => rfl
  subst hside
  exact ⟨String.toList_inj.mp (List.append_cancel_right (List.append_cancel_right hlist)), rfl⟩

/-- What the adoption of a round comes to, from the store before it and the venue's answers.
Without a checkpoint nothing that was sent may stand. A checkpoint is not behind any order that was
sent, and it has a ticket for the order, by the ID that is stored or that the venue gave for the
client ID, or it waits for a recovery. -/
def Adopted (pairs : Pairs) (log : List Event) (found : List (String × Native))
    (pairId : String) : Option Saved → Prop
  | none => ∀ key, Free log pairId key
  | some merged => ∀ side kind outcome, .submitted pairId side kind outcome ∈ log →
      outcome ≠ .refused → .finished pairId ∉ log →
      (∀ r, Pair.intentRevision kind "limit" = some r →
        (r.val : Int) ≤ merged.checkpoint.limitRevisions side) ∧
      (∀ r, Pair.intentRevision kind "hard_stop" = some r →
        (r.val : Int) ≤ merged.checkpoint.hardStopRevision) ∧
      ∃ stored, Stands pairs pairId (slotKey kind side) stored ∧ stored.refusal = false ∧
        (merged.Waits ∨ TicketFor (ticketIds merged.checkpoint) found stored)

theorem adopted_of_covers {pairs : Pairs} (h : Inv V pairs log) {r : PairRecord}
    (hreads : Reads log pairId r)
    (hsame : ∀ key stored, Stands pairs pairId key stored → r.intents.lookup key = some stored)
    {merged : Saved} {found : List (String × Native)}
    (hcovers : ∀ e ∈ r.intents, merged.Covers found e.2) :
    Adopted pairs log found pairId (some merged) := by
  intro side kind outcome hmem hne hopen
  have hholds := (h.held pairId side kind outcome hmem hne).resolve_left hopen
  obtain ⟨stored, hstands, hcounts⟩ := holds_iff.mp hholds
  have he := mem_of_lookup (hsame _ _ hstands)
  obtain ⟨hkind, hside⟩ : kind = stored.kind ∧ side = stored.side :=
    slotKey_inj (hreads.slots _ he)
  obtain ⟨hlimits, hstop, haccounted⟩ := hcovers _ he
  rw [← hkind, ← hside] at hlimits
  rw [← hkind] at hstop
  refine ⟨hlimits, hstop, stored, hstands, hcounts, haccounted.resolve_left (fun hrefusal => ?_)⟩
  rw [hcounts] at hrefusal
  cases hrefusal

/-- A round whose merge leaves nothing to manage has only refused intents. -/
theorem free_of_nothing_left {r : PairRecord} (h : Reads log pairId r) {merged : Saved}
    {found : List (String × Native)} (hcovers : ∀ e ∈ r.intents, merged.Covers found e.2)
    (htickets : merged.checkpoint.tickets = [])
    (hwaits : ¬ merged.Waits) (key : String) : Free log pairId key := by
  cases hlookup : r.intents.lookup key with
  | none => exact h.missing key hlookup
  | some stored =>
      have he := mem_of_lookup hlookup
      rcases (hcovers _ he).accounted with hrefusal | hw | hne
      · exact h.refused _ he hrefusal
      · exact absurd hw hwaits
      · obtain ⟨known, hmem, -⟩ := hne
        unfold ticketIds at hmem
        rw [htickets] at hmem
        cases hmem

/-- **`adopt` keeps the invariant and loses no order.** -/
theorem adopt_triple (hown : V.own pairId = true) {pairs : Pairs} (h : Inv V pairs log) :
    Triple (fun w => At V log w ∧ w.pairs = pairs) (adopt V pairId)
      (fun result w => Adopted pairs log w.found pairId result ∧ Good V w) (fun _ => Good V) := by
  unfold adopt
  refine Triple.bind ((pairRecord_of hown pairs).conseq (fun _ h => h) (fun _ _ h => h)
    (fun _ _ h => h.good)) (fun found => Triple.of_fact (fun hread => ?_))
  cases found with
  | none => exact Triple.pure (fun s hs => ⟨hread.1 rfl, hs.good⟩)
  | some r =>
      obtain ⟨hreads, hsame⟩ := hread.2 r rfl
      obtain rfl := hreads.named
      dsimp only
      unfold adoptRound
      refine get_triple (fun w => ?_)
      refine Triple.bind ((mergeCheckpointIntents_triple hown hreads _).conseq (fun _ h => h)
        (fun _ _ h => h) (fun _ _ h => h.good)) (fun merged => ?_)
      have hframe : ∀ P : List (String × Native) → Prop, ∀ ended op,
          Keeps (fun w => P w.found) (mutateEnding V ended op) :=
        fun P ended op => mutateEnding_frame (fun _ _ _ _ h => h) ended op
      -- a round with no ticket and nothing to wait for is closed
      by_cases hclosed : merged.checkpoint.tickets = [] ∧
          merged.checkpoint.phase ≠ .startupRecovery ∧ merged.checkpoint.phase ≠ .hardStopRecovery
      · rw [if_pos hclosed]
        refine Triple.bind (Q := fun _ w => Adopted pairs log w.found r.pairId none ∧ Good V w) ?_
          (fun _ => Triple.pure (fun _ hs => hs))
        refine (Triple.and (@mutateEnding_good V log _ _ (fun _ _ _ h hd =>
          storeCheckpoint_inv h (fun _ => List.mem_cons_self) hd)) (hframe (fun found =>
            Adopted pairs log found r.pairId none) _ _)).conseq ?_ (fun _ _ h => ⟨h.2, h.1⟩)
          (fun _ _ h => h.1)
        exact fun w hw => ⟨hw.2, free_of_nothing_left hreads hw.1 hclosed.1
          (fun hwaits => hwaits.2.elim hclosed.2.1 hclosed.2.2)⟩
      · rw [if_neg hclosed]
        have hopen : false = true → .finished r.pairId ∈ log := fun hover => by cases hover
        refine Triple.bind (Q := fun _ w =>
          Adopted pairs log w.found r.pairId (some merged) ∧ Good V w) ?_
          (fun _ => Triple.pure (fun _ hs => hs))
        refine (Triple.and (@mutate_at V log _ (fun _ _ _ h hd =>
          storeCheckpoint_inv h hopen hd)) (hframe (fun found =>
            Adopted pairs log found r.pairId (some merged)) [] _)).conseq ?_
          (fun _ _ h => ⟨h.2, h.1.good⟩) (fun _ _ h => h.1.good)
        exact fun w hw => ⟨hw.2, adopted_of_covers h hreads hsame hw.1⟩

end TradingFleet.Rtrade
