import TradingFleet.Lifecycle.Tracks
import TradingFleet.Rtrade.Slots

set_option autoImplicit false

/-! # The programs of the venue keep the invariant

Reading the store tells which slots are free. A recovery writes only intents that count, so it
needs no free slot; a placement sends an order only in a slot that its read found free, after its
intent was written. -/

namespace TradingFleet.Rtrade

open TradingFleet.Buckets TradingFleet.Hoare TradingFleet.Lifecycle TradingFleet.Text

variable (V : Venue)

/-- The invariant, and what was sent so far. -/
def At (log : List Event) (w : World) : Prop := Inv V w.pairs log ∧ w.log = log

def Good (w : World) : Prop := Inv V w.pairs w.log

variable {V} {log : List Event} {pairId : String}

theorem At.good {w : World} (h : At V log w) : Good V w := by
  unfold Good
  rw [h.2]
  exact h.1

/-! ## Calls -/

theorem ask_triple {α : Type} {P : World → Prop} {answer : Nat → Except Stop α}
    (hP : ∀ w n, P w → P { w with calls := n }) :
    Triple P (ask answer) (fun a w => P w ∧ ∃ n, answer n = .ok a) (fun _ => P) := by
  intro w hw
  unfold ask
  cases hanswer : answer w.calls with
  | ok a => exact ⟨hP w _ hw, _, hanswer⟩
  | error e => exact hP w _ hw

theorem ask_at {α : Type} {answer : Nat → Except Stop α} : Keeps (At V log) (ask answer) :=
  (ask_triple (fun _ _ hw => hw)).weaken (fun _ _ h => h.1)

theorem askOrder_triple {P : World → Prop} {clientOrderId : String}
    (hP : ∀ w n, P w → P { w with calls := n })
    (hfound : ∀ w native, P w →
      P { w with found := (clientOrderId, native) :: w.found }) :
    Triple P (askOrder V clientOrderId)
      (fun a w => P w ∧ ∀ native, a = .ok native →
        (clientOrderId, native) ∈ w.found ∧ ∃ n, V.orderByClientId n = .ok (.ok native))
      (fun _ => P) := by
  intro w hw
  unfold askOrder
  simp only
  cases hanswer : V.orderByClientId w.calls with
  | error stop => exact hP w _ hw
  | ok answer =>
      cases answer with
      | error e => exact ⟨hP w _ hw, fun _ h => nomatch h⟩
      | ok native =>
          refine ⟨hfound _ native (hP w (w.calls + 1) hw), fun native' h => ?_⟩
          cases h
          exact ⟨List.mem_cons_self, _, hanswer⟩

theorem setBlocked_at (blocked : Bool) : Keeps (At V log) (setBlocked pairId blocked) :=
  Triple.updates (fun _ hw => hw)

theorem setFailure_at (side : Pair.Side) (reason : Option String) :
    Keeps (At V log) (setFailure side reason) :=
  Triple.updates (fun _ hw => hw)

theorem raise_at {α : Type} (e : Exc) : Keeps (At V log) (raise e : Running α) := Keeps.throw _

/-- A program that reads the state for its clock only. -/
theorem get_triple {β : Type} {P : World → Prop} {Q : β → World → Prop} {E : Stop → World → Prop}
    {f : World → Running β} (h : ∀ w, Triple P (f w) Q E) :
    Triple P (MonadState.get >>= f) Q E :=
  Triple.get (fun w hw => (h w).strengthen (fun _ hs => hs ▸ hw))

/-! ## The store -/

theorem foreign_inv {pairs : Pairs} (h : Inv V pairs log) (r : PairRecord) :
    Inv V (foreign V pairs r) log := by
  unfold foreign
  split
  · exact h
  · rename_i hno
    simp only [Bool.or_eq_true, Bool.not_eq_true', decide_eq_false_iff_not, not_or,
      not_not] at hno
    exact (h.insert hno.2 (fun hown => absurd hown hno.1)
      (fun hown => absurd hown hno.1)).written V.retention

/-- Other bots do not touch a round of this one. -/
theorem foreign_stands {pairs : Pairs} (h : Inv V pairs log) (hown : V.own pairId = true)
    {key : String} {stored : Stored} (hstands : Stands pairs pairId key stored) (r : PairRecord) :
    Stands (foreign V pairs r) pairId key stored := by
  unfold foreign
  split
  · exact hstands
  · rename_i hno
    simp only [Bool.or_eq_true, Bool.not_eq_true', decide_eq_false_iff_not, not_or,
      not_not] at hno
    have hne : pairId ≠ r.pairId := fun heq => hno.1 (heq ▸ hown)
    have hinsert : Stands (insert pairs r.pairId r) pairId key stored := by
      obtain ⟨r', hr', hrest⟩ := hstands
      refine ⟨r', ?_, hrest⟩
      rw [lookup_insert, if_neg hne, hr']
    exact hinsert.written (h.wellformed.insert hno.2) V.retention

theorem meanwhile_spec {w : World} (h : At V log w) : At V log (w.meanwhile V) ∧
    ∀ pairId key stored, V.own pairId = true → Stands w.pairs pairId key stored →
      Stands (w.meanwhile V).pairs pairId key stored := by
  have hall : ∀ (others : List PairRecord) (pairs : Pairs), Inv V pairs log →
      Inv V (others.foldl (foreign V) pairs) log ∧
        ∀ pairId key stored, V.own pairId = true → Stands pairs pairId key stored →
          Stands (others.foldl (foreign V) pairs) pairId key stored := by
    intro others
    induction others with
    | nil => exact fun pairs hpairs => ⟨hpairs, fun _ _ _ _ hs => hs⟩
    | cons r rest ih =>
        intro pairs hpairs
        obtain ⟨hinv, hstands⟩ := ih _ (foreign_inv hpairs r)
        exact ⟨hinv, fun pairId key stored hown hs =>
          hstands pairId key stored hown (foreign_stands hpairs hown hs r)⟩
  exact ⟨⟨(hall _ _ h.1).1, h.2⟩, (hall _ _ h.1).2⟩

theorem meanwhile_at {w : World} (h : At V log w) : At V log (w.meanwhile V) := (meanwhile_spec h).1

theorem changeOf_ok {op : StoreOp} {now : ℚ} {pairs : Pairs} {change : Option Pairs}
    (h : changeOf V op now pairs = .ok change) :
    ∃ c, op now pairs = .ok c ∧ change = c.map (written V.retention) := by
  unfold changeOf at h
  obtain ⟨_, -, h⟩ := except_bind_ok h
  obtain ⟨c, hc, h⟩ := except_bind_ok h
  refine ⟨c, hc, ?_⟩
  cases c with
  | none =>
      cases h
      rfl
  | some d =>
      obtain ⟨_, -, h⟩ := except_bind_ok h
      cases h
      rfl

theorem World.install_nil (w : World) (change : Option Pairs) :
    w.install [] change = { w with pairs := change.getD w.pairs } := by
  cases change with
  | none => rfl
  | some d => rfl

/-- An access to the store changes the file, the log and the number of calls. -/
theorem mutateEnding_frame {P : World → Prop}
    (hP : ∀ w pairs log calls, P w → P { w with pairs := pairs, log := log, calls := calls })
    (ended : List String) (op : StoreOp) : Keeps P (mutateEnding V ended op) := by
  intro w hw
  have hread : P (w.meanwhile V) := hP w _ _ _ hw
  have hinstall : ∀ change, P ((w.meanwhile V).install ended change) := by
    intro change
    cases change with
    | none => exact hread
    | some d => exact hP w _ _ _ hw
  unfold mutateEnding
  simp only
  cases V.store w.calls with
  | none =>
      cases changeOf V op (V.wall w.calls) (w.meanwhile V).pairs with
      | error e => exact hread
      | ok change => exact hinstall change
  | some fault =>
      obtain ⟨stop, wrote⟩ := fault
      cases wrote with
      | false => exact hread
      | true =>
          cases changeOf V op (V.wall w.calls) (w.meanwhile V).pairs with
          | error e => exact hread
          | ok change => exact hinstall change

/-- What an operation keeps and brings about, `mutate` does. -/
theorem mutate_triple {op : StoreOp} {R : Pairs → Prop}
    (hwritten : ∀ d, Wellformed d → R d → R (written V.retention d))
    (hop : ∀ now pairs change, Inv V pairs log → op now pairs = .ok change →
      Inv V (change.getD pairs) log ∧ R (change.getD pairs)) :
    Triple (At V log) (mutate V op) (fun _ w => At V log w ∧ R w.pairs) (fun _ => At V log) := by
  intro w hw
  have hw₁ := meanwhile_at hw
  -- what the operation leaves is pruned and sorted before it is in the file
  have hend : ∀ change, changeOf V op (V.wall w.calls) (w.meanwhile V).pairs = .ok change →
      Inv V (change.getD (w.meanwhile V).pairs) log ∧ R (change.getD (w.meanwhile V).pairs) := by
    intro change hchange
    obtain ⟨c, hc, rfl⟩ := changeOf_ok hchange
    have hdone := hop _ _ _ hw₁.1 hc
    cases c with
    | none => exact hdone
    | some d => exact ⟨hdone.1.written _, hwritten d hdone.1.wellformed hdone.2⟩
  unfold mutate mutateEnding
  simp only [World.install_nil]
  cases hchange : changeOf V op (V.wall w.calls) (w.meanwhile V).pairs with
  | error e =>
      cases V.store w.calls with
      | none => exact hw₁
      | some fault =>
          obtain ⟨stop, wrote⟩ := fault
          cases wrote with
          | false => exact hw₁
          | true => exact hw₁
  | ok change =>
      cases V.store w.calls with
      | none => exact ⟨⟨(hend change hchange).1, hw₁.2⟩, (hend change hchange).2⟩
      | some fault =>
          -- the file may have the write of a call that raised
          obtain ⟨stop, wrote⟩ := fault
          cases wrote with
          | false => exact hw₁
          | true => exact ⟨(hend change hchange).1, hw₁.2⟩

theorem mutate_at {op : StoreOp}
    (hop : ∀ now pairs d, Inv V pairs log → op now pairs = .ok (some d) → Inv V d log) :
    Keeps (At V log) (mutate V op) := by
  refine (mutate_triple (R := fun _ => True) (fun _ _ _ => trivial) ?_).weaken (fun _ _ h => h.1)
  intro now pairs change h hchange
  cases change with
  | none => exact ⟨h, trivial⟩
  | some d => exact ⟨hop now pairs d h hchange, trivial⟩

section Persist

variable {side : Pair.Side} {kind : String}

theorem persistNone_at (hfree : Free log pairId (slotKey kind side)) :
    Keeps (At V log) (persistRaw V pairId side kind none) :=
  mutate_at (fun _ _ _ h hd => dropIntent_inv h hfree hd)

theorem persistSome_at (hown : V.own pairId = true) {p : Intent}
    (hsafe : preSubmitRefusal p = true → Free log pairId (slotKey kind side)) :
    Keeps (At V log) (persistRaw V pairId side kind (some p)) := by
  have hvalue : (Stored.tracked { p with side := legSide side, kind := some kind }).refusal =
      preSubmitRefusal p := rfl
  rw [← hvalue] at hsafe
  exact mutate_at (fun _ _ _ h hd => putIntent_inv h hown hsafe hd)

/-- Afterwards the store has an intent that counts in the slot. -/
theorem put_holds (side : Pair.Side) (kind : String) (hown : V.own pairId = true)
    (hopen : .finished pairId ∉ log) (qty : ℚ) {value : Stored} (hvalue : value.refusal = false) :
    Triple (At V log) (mutate V (putIntent V.symbol pairId side kind qty value))
      (fun _ w => At V log w ∧ Holds w.pairs pairId (slotKey kind side)) (fun _ => At V log) := by
  refine mutate_triple (R := fun pairs => Holds pairs pairId (slotKey kind side))
    (fun d hd hholds => hholds.written hd V.retention) (fun now pairs change h hchange => ?_)
  refine ⟨?_, putIntent_holds h hown hopen hvalue hchange⟩
  cases change with
  | none => exact h
  | some d =>
      exact putIntent_inv h hown (fun hrefused => by rw [hvalue] at hrefused; cases hrefused)
        hchange

end Persist

/-! ## Reading -/

/-- What a read says about the slots of an open round. -/
structure Reads (log : List Event) (pairId : String) (r : PairRecord) : Prop where
  named : r.pairId = pairId
  missing : ∀ key, r.intents.lookup key = none → Free log pairId key
  slots : ∀ e ∈ r.intents, e.1 = slotKey e.2.kind e.2.side
  refused : ∀ e ∈ r.intents, e.2.refusal = true → Free log pairId e.1

theorem readPairs_triple (d : Pairs) : Triple (fun w => At V log w ∧ w.pairs = d) (readPairs V)
    (fun pairs w => (At V log w ∧ w.pairs = pairs) ∧ Sound pairs ∧
      ∀ pairId key stored, V.own pairId = true → Stands d pairId key stored →
        Stands pairs pairId key stored) (fun _ => At V log) := by
  rintro w ⟨hw, rfl⟩
  obtain ⟨hw₁, hstands⟩ := meanwhile_spec hw
  unfold readPairs
  cases V.store w.calls with
  | some fault => exact hw₁
  | none =>
      cases hvalid : validate (w.meanwhile V).pairs with
      | error e => exact hw₁
      | ok _ => exact ⟨⟨hw₁, rfl⟩, validate_sound hvalid, hstands⟩

theorem Stored.kind_of_text {stored : Stored} (h : stored.kindText ≠ "") :
    stored.kind = stored.kindText := by
  cases stored with
  | written i => rfl
  | tracked p =>
      show orElse p.kind "limit" = p.kind.getD ""
      have htext : p.kind.getD "" ≠ "" := h
      cases hkind : p.kind with
      | none =>
          rw [hkind] at htext
          exact absurd rfl htext
      | some kind =>
          rw [hkind, Option.getD_some] at htext
          exact if_neg htext

theorem reads_of_lookup {pairs : Pairs} (h : Inv V pairs log) (hsound : Sound pairs)
    {r : PairRecord} (hr : pairs.lookup pairId = some r) : Reads log pairId r where
  named := hsound.named _ (mem_of_lookup hr)
  missing key hkey := by
    refine h.free (fun ⟨r', hr', _, stored, hstored, _⟩ => ?_)
    rw [hr, Option.some.injEq] at hr'
    rw [← hr', hkey] at hstored
    cases hstored
  slots e he := by
    obtain ⟨hkind, hkey⟩ := hsound.slots _ (mem_of_lookup hr) e he
    rw [Stored.kind_of_text hkind, hkey]
  refused e he hrefusal := by
    refine h.free (fun ⟨r', hr', _, stored, hstored, hcounts⟩ => ?_)
    rw [hr, Option.some.injEq] at hr'
    rw [← hr', lookup_of_mem (h.wellformed.nodup hr) he, Option.some.injEq] at hstored
    rw [← hstored, hrefusal] at hcounts
    cases hcounts

/-- **The read of a round of this bot.** Without an open round every slot is free; an open one is
read with the intents it had. -/
theorem pairRecord_of (hown : V.own pairId = true) (d : Pairs) :
    Triple (fun w => At V log w ∧ w.pairs = d) (pairRecord V pairId)
      (fun found w => ((found = none → ∀ key, Free log pairId key) ∧
        ∀ r, found = some r → Reads log pairId r ∧
          ∀ key stored, Stands d pairId key stored → r.intents.lookup key = some stored) ∧
        At V log w) (fun _ => At V log) := by
  unfold pairRecord
  refine Triple.bind (readPairs_triple d) (fun pairs => Triple.pure ?_)
  rintro w ⟨⟨hw, rfl⟩, hsound, hstands⟩
  refine ⟨⟨fun hnone key => hw.1.free (fun ⟨r, hr, hopen, _⟩ => ?_), fun r hfound => ?_⟩, hw⟩
  · -- an open round of this bot would have been found
    have hmem := mem_of_lookup hr
    have hround : r ∈ activeRounds V.symbol w.pairs := by
      unfold activeRounds
      rw [List.mem_filter]
      refine ⟨List.mem_map.mpr ⟨_, hmem, rfl⟩, ?_⟩
      simp [(hw.1.owned pairId r hr hown).1, hopen]
    have hno := List.find?_eq_none.mp hnone r hround
    exact hno (by simpa using hsound.named _ hmem)
  · have hnamed : r.pairId = pairId := by simpa using List.find?_some hfound
    have hround := List.mem_of_find?_eq_some hfound
    unfold activeRounds at hround
    obtain ⟨⟨k, r'⟩, hmem, rfl⟩ := List.mem_map.mp (List.mem_filter.mp hround).1
    have hkey : r'.pairId = k := hsound.named _ hmem
    rw [← hkey, hnamed] at hmem
    have hlookup := lookup_of_mem hw.1.wellformed.keys hmem
    refine ⟨reads_of_lookup hw.1 hsound hlookup, fun key stored hs => ?_⟩
    obtain ⟨r, hr, -, hstored⟩ := hstands pairId key stored hown hs
    rw [hlookup, Option.some.injEq] at hr
    rw [hr, hstored]

theorem pairRecord_triple (hown : V.own pairId = true) : Triple (At V log) (pairRecord V pairId)
    (fun found w => ((found = none → ∀ key, Free log pairId key) ∧
      ∀ r, found = some r → Reads log pairId r) ∧ At V log w) (fun _ => At V log) :=
  fun w hw => ((pairRecord_of hown w.pairs).weaken
    (fun _ _ h => ⟨⟨h.1.1, fun r hr => (h.1.2 r hr).1⟩, h.2⟩)) w ⟨hw, rfl⟩

end TradingFleet.Rtrade
