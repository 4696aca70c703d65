import TradingFleet.Rtrade.Adoptions

set_option autoImplicit false

/-! # Runs of the venue

Coordinators call the venue in any order, its calls answer in any way, and the process may stop at
any of them and start again with nothing but the store. -/

namespace TradingFleet.Rtrade

open TradingFleet.Buckets TradingFleet.Hoare TradingFleet.Lifecycle

/-! ## Calls -/

/-- A call of a coordinator or of the loop around the coordinators. -/
inductive Action where
  | placeLimit (side : Pair.Side) (price qty : ℚ) (pairId : String) (revision : Int)
  | placeMarketExit (side : Pair.Side) (pairId : String) (cachePermit : Option String)
      (revision : Int)
  | recoverPairIntents (pairId : String)
  | checkpointMany (checkpoints : List (String × Saved × Bool))
  | adopt (pairId : String)
  | restart

variable (V : Venue)

/-- Coordinators have rounds of this bot, and one that is over is not stepped again. -/
def Action.allowed (w : World) : Action → Bool
  | .placeLimit _ _ _ pairId _ => V.own pairId && !w.log.contains (.finished pairId)
  | .placeMarketExit _ pairId _ _ => V.own pairId && !w.log.contains (.finished pairId)
  | .recoverPairIntents pairId => V.own pairId
  | .checkpointMany checkpoints => checkpoints.all (fun x => V.own x.1)
  | .adopt pairId => V.own pairId
  | .restart => true

/-- What the process forgets. -/
def World.restarted (w : World) : World :=
  { w with blocked := [], failures := fun _ => none, retained := none }

def Action.program : Action → Running Unit
  | .placeLimit side price qty pairId revision => do
      let _ ← Rtrade.placeLimit V side price qty pairId revision
  | .placeMarketExit side pairId cachePermit revision => do
      let _ ← Rtrade.placeMarketExit V side pairId cachePermit revision
  | .recoverPairIntents pairId => do
      let _ ← Rtrade.recoverPairIntents V pairId
  | .checkpointMany checkpoints => Rtrade.checkpointMany V checkpoints
  | .adopt pairId => do
      let _ ← Rtrade.adopt V pairId
  | .restart => modify World.restarted

/-- An exception is caught by the loop; after a crash the process starts again. -/
def World.ended : EStateM.Result Stop World Unit → World
  | .ok _ w => w
  | .error .crash w => w.restarted
  | .error (.raised _) w => w

def World.act (w : World) (a : Action) : World :=
  if a.allowed V w then World.ended (a.program V w) else w

/-- A run from an empty store. -/
def run (actions : List Action) : World := actions.foldl (World.act V) { pairs := [] }

/-! ## Every call keeps the invariant -/

variable {V} {log : List Event} {pairId : String}

theorem recoverOne_at {record : PairRecord} (hown : V.own record.pairId = true)
    (acc : List (Pair.OrderTicket × Pair.OrderSnapshot × String) × Bool) {stored : Stored}
    (hfree : stored.refusal = true → Free log record.pairId (slotKey stored.kind stored.side)) :
    Keeps (At V log) (recoverOne V record acc stored) := by
  unfold recoverOne
  by_cases hrefusal : stored.refusal = true
  · rw [if_pos hrefusal]
    exact Keeps.bind (persistNone_at (hfree hrefusal)) (fun _ => Keeps.pure _)
  · rw [if_neg hrefusal]
    refine Keeps.bind (recoverIntent_at hown (by simpa using hrefusal)) (fun result => ?_)
    cases result with
    | error _ => exact Keeps.pure _
    | ok found => exact Keeps.pure _

/-- **`recover_pair_intents` sends nothing and keeps every intent that counts.** -/
theorem recoverPairIntents_at (hown : V.own pairId = true) :
    Keeps (At V log) (recoverPairIntents V pairId) := by
  unfold recoverPairIntents
  refine Triple.bind (pairRecord_triple hown) (fun found => Triple.of_fact (fun hread => ?_))
  cases found with
  | none => exact Keeps.bind (setBlocked_at _) (fun _ => raise_at _)
  | some r =>
      have hreads := hread.2 r rfl
      obtain rfl := hreads.named
      refine Triple.bind (Q := fun _ => At V log) ?_
        (fun acc => Keeps.bind (setBlocked_at _) (fun _ => Keeps.pure _))
      refine Triple.foldlM (I := fun _ _ => At V log) (fun done b rest acc hl => ?_) _
      have hmem : b ∈ r.intents.map Prod.snd := by
        rw [hl]
        exact List.mem_append_right _ List.mem_cons_self
      obtain ⟨e, he, rfl⟩ := List.mem_map.mp hmem
      refine recoverOne_at hown acc (fun hrefusal => ?_)
      rw [← hreads.slots e he]
      exact hreads.refused e he hrefusal

/-- **`checkpoint_many` ends only the rounds it is told to end.** -/
theorem checkpointMany_triple (checkpoints : List (String × Saved × Bool)) :
    Triple (At V log) (checkpointMany V checkpoints) (fun _ => Good V) (fun _ => Good V) := by
  unfold checkpointMany
  refine Triple.ite (Triple.pure (fun _ hs => hs.good)) (mutateEnding_good ?_)
  intro now pairs d h hd
  refine storeCheckpoints_inv h (fun x hx hover => ?_) hd
  refine List.mem_append_left _ (List.mem_map.mpr ⟨x.1, ?_, rfl⟩)
  exact List.mem_map.mpr ⟨x, List.mem_filter.mpr ⟨hx, hover⟩, rfl⟩

theorem discard_triple {α : Type} {x : Running α} {P : World → Prop}
    (hx : Triple P x (fun _ => Good V) (fun _ => Good V)) :
    Triple P (do let _ ← x) (fun _ => Good V) (fun _ => Good V) :=
  Triple.bind hx (fun _ => Triple.pure (fun _ hs => hs))

theorem program_triple {a : Action} {w : World} (hallowed : a.allowed V w = true) :
    Triple (At V w.log) (a.program V) (fun _ => Good V) (fun _ => Good V) := by
  cases a with
  | placeLimit side price qty pairId revision =>
      simp only [Action.allowed, Bool.and_eq_true, Bool.not_eq_true', List.contains_eq_mem,
        decide_eq_false_iff_not] at hallowed
      exact discard_triple (placeLimit_triple hallowed.1 hallowed.2 price qty revision)
  | placeMarketExit side pairId cachePermit revision =>
      simp only [Action.allowed, Bool.and_eq_true, Bool.not_eq_true', List.contains_eq_mem,
        decide_eq_false_iff_not] at hallowed
      exact discard_triple (placeMarketExit_triple hallowed.1 hallowed.2 cachePermit revision)
  | recoverPairIntents pairId =>
      exact discard_triple (At.keeps_good (recoverPairIntents_at hallowed))
  | checkpointMany checkpoints => exact checkpointMany_triple checkpoints
  | adopt pairId =>
      refine discard_triple (fun s hs => ?_)
      exact ((adopt_triple hallowed hs.1).weaken (fun _ _ h => h.2)) s ⟨hs, rfl⟩
  | restart => exact Triple.updates (fun _ hs => hs.good)

/-- **One call keeps the invariant**, however it ends. -/
theorem act_good {w : World} (h : Good V w) (a : Action) : Good V (w.act V a) := by
  unfold World.act
  split
  · rename_i hallowed
    have hpost := program_triple hallowed w ⟨h, rfl⟩
    cases hrun : a.program V w with
    | ok _ w' => exact hpost.ok hrun
    | error stop w' =>
        -- a restart forgets what the process had in memory, not the store
        have hgood : Good V w' := hpost.error hrun
        cases stop with
        | crash => exact hgood
        | raised e => exact hgood
  · exact h

theorem empty_good : Good V { pairs := [] } where
  wellformed := ⟨List.nodup_nil, List.forall_mem_nil _⟩
  owned _ _ hr := by cases hr
  sent _ _ _ _ hmem := by cases hmem
  held _ _ _ _ hmem := by cases hmem
  once := List.Pairwise.nil

theorem run_good (actions : List Action) : Good V (run V actions) := by
  unfold run
  generalize hstart : ({ pairs := [] } : World) = w
  have hw : Good V w := hstart ▸ empty_good
  clear hstart
  induction actions generalizing w with
  | nil => exact hw
  | cons a rest ih => exact ih (w.act V a) (act_good hw a)

/-! ## A bot whose answers are lost -/

/-- The status of an order that nobody has filled. -/
def sampleStatus : OrderStatus where
  status := .opened
  filledQty := 0
  cost := 0
  fee := 0
  filledQty_nonneg := OrderStatus.nothing_nonneg
  cost_nonneg := OrderStatus.nothing_nonneg

/-- The first order is refused before the submit. The answer to the second is lost, but the venue
has it under its client ID. -/
def sampleVenue : Venue where
  symbol := "BTCUSDC"
  retention := 10
  settings :=
    { missingConfirmations_pos := Settings.default_confirmations
      maxAgeSeconds_pos := Settings.no_max_age }
  pollSec := 5
  horizonSec := 86400
  digest := id
  own pairId := pairId = "p1"
  wall n := n
  recoveryClock n := .ok (n + 1)
  clock n := .ok (some (n + 1))
  audit _ := .ok ()
  others _ := []
  store _ := none
  currentPrice _ := .ok (some 100)
  balanceCap _ := .ok (none, none)
  finalQty _ := .ok 1
  precision _ := .ok none
  preflight _ := .ok "permit"
  place n :=
    if n < 10 then .ok (.ok ⟨.missing, some (.refused, "price outside TTL")⟩)
    else .ok (.error ⟨.provider, "ProviderError", "timeout"⟩)
  submitMarket _ := .ok (.error ⟨.provider, "ProviderError", "timeout"⟩)
  orderByClientId _ := .ok (.ok (.record { orderId := some (.text "77") }))
  orderStatus _ := .ok (.ok sampleStatus)
  cancelOrder _ := .ok (.ok ())
  found_plain n native h := by
    cases h
    decide
  placed_plain n reply h := by
    split at h
    · cases h
      decide
    · cases h

/-- An order that is refused, the same order again, and a restart. -/
def sampleRun : List Action :=
  [.placeLimit .buy 100 1 "p1" 0, .placeLimit .buy 100 1 "p1" 0, .restart]

/-! ## The main results -/

variable (V)

/-- **Over every run of calls, answers, faults, crashes and restarts, a slot is used again only
after a refusal, and the intent of an order that was sent and not refused is in the store as long
as its round is open.** -/
theorem orders_sent_once (actions : List Action) :
    SentOnce (run V actions).log ∧
      ∀ pairId side kind outcome, .submitted pairId side kind outcome ∈ (run V actions).log →
        outcome ≠ .refused → .finished pairId ∈ (run V actions).log ∨
          Holds (run V actions).pairs pairId (slotKey kind side) :=
  ⟨(run_good actions).once, (run_good actions).held⟩

/-- After the restart the order is asked for a third time, and nothing is sent. -/
theorem resent_after_refusal :
    (run sampleVenue (sampleRun ++ [.placeLimit .buy 100 1 "p1" 0])).log =
        [.submitted "p1" .buy "limit" .unknown, .submitted "p1" .buy "limit" .refused] ∧
      SentOnce (run sampleVenue (sampleRun ++ [.placeLimit .buy 100 1 "p1" 0])).log ∧
      (.finished "p1" ∈ (run sampleVenue (sampleRun ++ [.placeLimit .buy 100 1 "p1" 0])).log ∨
        Holds (run sampleVenue (sampleRun ++ [.placeLimit .buy 100 1 "p1" 0])).pairs "p1"
          (slotKey "limit" .buy)) := by
  obtain ⟨honce, hheld⟩ :=
    orders_sent_once sampleVenue (sampleRun ++ [.placeLimit .buy 100 1 "p1" 0])
  exact ⟨by decide +kernel, honce, hheld "p1" .buy "limit" .unknown (by decide +kernel) nofun⟩

/-- **After every run, an adoption gives a round up only if nothing that was sent in it may stand; a
checkpoint that it adopts is behind no order that was sent, and has a ticket for each of them or
waits for a recovery.** -/
theorem adoption_loses_no_order (actions : List Action) (pairId : String) :
    Post (fun result w =>
      Adopted (run V actions).pairs (run V actions).log w.found pairId result)
      (fun _ _ => True)
      (adopt V pairId (run V actions)) := by
  have hgood := run_good (V := V) actions
  by_cases hown : V.own pairId = true
  · have hadopt := adopt_triple hown hgood (run V actions) ⟨⟨hgood, rfl⟩, rfl⟩
    cases hrun : adopt V pairId (run V actions) with
    | ok result w => exact (hadopt.ok hrun).1
    | error e w => trivial
  · -- nothing is sent in a round of another bot
    have hnone : ∀ side kind outcome,
        .submitted pairId side kind outcome ∉ (run V actions).log :=
      fun side kind outcome hmem => hown (hgood.sent pairId side kind outcome hmem)
    cases adopt V pairId (run V actions) with
    | error e w => trivial
    | ok result w =>
        cases result with
        | none => exact fun _ => .inr (fun side kind outcome _ hmem => absurd hmem (hnone _ _ _))
        | some merged => exact fun side kind outcome hmem => absurd hmem (hnone _ _ _)

/-- The tickets of an adopted round. -/
def adoptedIds : EStateM.Result Stop World (Option Saved) → Option (List String)
  | .ok (some merged) _ => some (ticketIds merged.checkpoint)
  | _ => none

/-- The order whose answer was lost has a ticket, with the ID that the venue gave. -/
theorem lost_order_adopted :
    adoptedIds (adopt sampleVenue "p1" (run sampleVenue sampleRun)) = some ["77"] ∧
      Post (fun result w => Adopted (run sampleVenue sampleRun).pairs
        (run sampleVenue sampleRun).log w.found "p1" result) (fun _ _ => True)
        (adopt sampleVenue "p1" (run sampleVenue sampleRun)) :=
  ⟨by decide +kernel, adoption_loses_no_order sampleVenue sampleRun "p1"⟩

end TradingFleet.Rtrade
