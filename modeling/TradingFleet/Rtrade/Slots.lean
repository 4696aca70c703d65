import TradingFleet.Basic.Hoare
import TradingFleet.Rtrade.Venue

set_option autoImplicit false

/-! # The slots of the orders that were sent

The order of a slot goes under a client ID that belongs to the slot. The invariant: an order that
was sent and not refused has its intent in the store while its round is open, and its slot was not
used again. Every operation of the store keeps it, given that only the intent of a free slot is
dropped or marked as refused. -/

namespace TradingFleet.Rtrade

open TradingFleet.Buckets TradingFleet.Hoare TradingFleet.Lifecycle

/-! ## The invariant -/

/-- The round keeps an intent in the slot that is not refused. -/
def PairRecord.Holds (r : PairRecord) (key : String) : Prop :=
  ∃ stored, r.intents.lookup key = some stored ∧ stored.refusal = false

/-- An open round of that ID has the intent in the slot. -/
def Stands (pairs : Pairs) (pairId key : String) (stored : Stored) : Prop :=
  ∃ r, pairs.lookup pairId = some r ∧ r.terminal = false ∧ r.intents.lookup key = some stored

/-- An open round of that ID keeps an intent in the slot that is not refused. -/
def Holds (pairs : Pairs) (pairId key : String) : Prop :=
  ∃ r, pairs.lookup pairId = some r ∧ r.terminal = false ∧ r.Holds key

/-- The round is over, or what was sent under the slot was refused. -/
def Free (log : List Event) (pairId key : String) : Prop :=
  .finished pairId ∈ log ∨
    ∀ side kind outcome, slotKey kind side = key →
      .submitted pairId side kind outcome ∈ log → outcome = .refused

/-- A slot is used again only after a refusal. -/
def SentOnce (log : List Event) : Prop :=
  log.Pairwise (fun later earlier => ∀ pairId side kind outcome outcome',
    later = .submitted pairId side kind outcome →
    earlier = .submitted pairId side kind outcome' → outcome' = .refused)

variable (V : Venue)

structure Inv (pairs : Pairs) (log : List Event) : Prop where
  wellformed : Wellformed pairs
  owned : ∀ pairId r, pairs.lookup pairId = some r → V.own pairId = true →
    r.symbol = V.symbol ∧ (r.terminal = true → .finished pairId ∈ log)
  sent : ∀ pairId side kind outcome, .submitted pairId side kind outcome ∈ log →
    V.own pairId = true
  held : ∀ pairId side kind outcome, .submitted pairId side kind outcome ∈ log →
    outcome ≠ .refused → .finished pairId ∈ log ∨ Holds pairs pairId (slotKey kind side)
  once : SentOnce log

variable {V} {pairs : Pairs} {log : List Event} {pairId key : String}

/-- A slot without an intent that counts is free. -/
theorem Inv.free (h : Inv V pairs log) (hno : ¬ Holds pairs pairId key) : Free log pairId key := by
  by_cases hfinished : Event.finished pairId ∈ log
  · exact .inl hfinished
  · refine .inr (fun side kind outcome hkey hmem => ?_)
    by_contra hne
    -- an order that was not refused would have its intent in the store
    rcases h.held pairId side kind outcome hmem hne with hover | hholds
    · exact hfinished hover
    · rw [hkey] at hholds
      exact hno hholds

theorem Wellformed.nodup (h : Wellformed pairs) {r : PairRecord}
    (hr : pairs.lookup pairId = some r) : (r.intents.map Prod.fst).Nodup :=
  h.intents _ (mem_of_lookup hr)

/-! ## Writes -/

theorem lookup_of_written (h : Wellformed pairs) {retention : Nat} {r : PairRecord}
    (hr : (written retention pairs).lookup pairId = some r) :
    ∃ r₀, pairs.lookup pairId = some r₀ ∧ r = r₀.sorted := by
  obtain ⟨⟨k, r₀⟩, hmem, heq⟩ := List.mem_map.mp ((sortKeys_perm _).mem_iff.mp (mem_of_lookup hr))
  rw [Prod.mk.injEq] at heq
  obtain ⟨rfl, rfl⟩ := heq
  exact ⟨r₀, lookup_of_mem h.keys (List.mem_of_mem_filter hmem), rfl⟩

theorem Stands.written {stored : Stored} (h : Wellformed pairs)
    (hstands : Stands pairs pairId key stored) (retention : Nat) :
    Stands (written retention pairs) pairId key stored := by
  obtain ⟨r, hr, hopen, hstored⟩ := hstands
  refine ⟨r.sorted, lookup_written h hr hopen retention, hopen, ?_⟩
  rw [lookup_sorted (h.nodup hr), hstored]

theorem holds_iff : Holds pairs pairId key ↔
    ∃ stored, Stands pairs pairId key stored ∧ stored.refusal = false := by
  constructor
  · rintro ⟨r, hr, hopen, stored, hstored, hcounts⟩
    exact ⟨stored, ⟨r, hr, hopen, hstored⟩, hcounts⟩
  · rintro ⟨stored, ⟨r, hr, hopen, hstored⟩, hcounts⟩
    exact ⟨r, hr, hopen, stored, hstored, hcounts⟩

theorem Holds.written (h : Wellformed pairs) (hholds : Holds pairs pairId key) (retention : Nat) :
    Holds (written retention pairs) pairId key := by
  obtain ⟨stored, hstands, hcounts⟩ := holds_iff.mp hholds
  exact holds_iff.mpr ⟨stored, hstands.written h retention, hcounts⟩

/-- The file has what the operation left, but for rounds that are over. -/
theorem Inv.written (h : Inv V pairs log) (retention : Nat) :
    Inv V (written retention pairs) log where
  wellformed := h.wellformed.written retention
  owned pairId r hr hown := by
    obtain ⟨r₀, hr₀, rfl⟩ := lookup_of_written h.wellformed hr
    exact h.owned pairId r₀ hr₀ hown
  sent := h.sent
  held pairId side kind outcome hmem hne :=
    (h.held pairId side kind outcome hmem hne).imp_right
      (fun hholds => hholds.written h.wellformed retention)
  once := h.once

/-- A round is replaced: what it held it holds, unless the slot is free. -/
theorem Inv.insert (h : Inv V pairs log) {r : PairRecord}
    (hnodup : (r.intents.map Prod.fst).Nodup)
    (howned : V.own pairId = true → r.symbol = V.symbol ∧
      (r.terminal = true → .finished pairId ∈ log))
    (hkeeps : V.own pairId = true → ∀ key, Holds pairs pairId key →
      Free log pairId key ∨ (r.terminal = false ∧ r.Holds key)) :
    Inv V (insert pairs pairId r) log where
  wellformed := h.wellformed.insert hnodup
  owned q r' hr' hown := by
    rw [lookup_insert] at hr'
    split at hr'
    · rename_i heq
      cases hr'
      exact heq ▸ howned (heq ▸ hown)
    · exact h.owned q r' hr' hown
  sent := h.sent
  held q side kind outcome hmem hne := by
    rcases h.held q side kind outcome hmem hne with hover | hholds
    · exact .inl hover
    -- only the round that is replaced may lose an intent
    · by_cases heq : q = pairId
      · subst heq
        rcases hkeeps (h.sent q side kind outcome hmem) _ hholds with hfree | ⟨hopen, hr⟩
        · rcases hfree with hover | hrefused
          · exact .inl hover
          · exact absurd (hrefused side kind outcome rfl hmem) hne
        · refine .inr ⟨r, ?_, hopen, hr⟩
          rw [lookup_insert, if_pos rfl]
      · obtain ⟨r', hr', hrest⟩ := hholds
        refine .inr ⟨r', ?_, hrest⟩
        rw [lookup_insert, if_neg heq]
        exact hr'
  once := h.once

/-! ## Operations -/

theorem PairRecord.Holds.insert {r : PairRecord} {key' : String} {value : Stored}
    (h : r.Holds key') (hvalue : key' = key → value.refusal = false) (now : ℚ) :
    (r.setIntent key value now).Holds key' := by
  obtain ⟨stored, hstored, hcounts⟩ := h
  by_cases heq : key' = key
  · refine ⟨value, ?_, hvalue heq⟩
    show (Buckets.insert r.intents key value).lookup key' = some value
    rw [lookup_insert, if_pos heq]
  · refine ⟨stored, ?_, hcounts⟩
    show (Buckets.insert r.intents key value).lookup key' = some stored
    rw [lookup_insert, if_neg heq, hstored]

theorem roundFor_ok {symbol : String} {side : Pair.Side} {qty now : ℚ} {r : PairRecord}
    (h : roundFor symbol pairId side qty now pairs = .ok r) :
    pairs.lookup pairId = some r ∨
      (pairs.lookup pairId = none ∧ r = .reserved symbol pairId side qty now) := by
  unfold roundFor at h
  split at h
  · rename_i r' hr'
    cases h
    exact .inl hr'
  · rename_i hnone
    split at h
    · cases h
    · cases h
      exact .inr ⟨hnone, rfl⟩

theorem putIntent_ok {symbol : String} {side : Pair.Side} {kind : String} {qty now : ℚ}
    {value : Stored} {change : Option Pairs}
    (h : putIntent symbol pairId side kind qty value now pairs = .ok change) :
    ∃ r, roundFor symbol pairId side qty now pairs = .ok r ∧
      ((change = none ∧ r.intents.lookup (slotKey kind side) = some value) ∨
        change = some (insert pairs pairId (r.setIntent (slotKey kind side) value now))) := by
  unfold putIntent at h
  split at h
  · cases h
  · rename_i r hr
    refine ⟨r, hr, ?_⟩
    split at h
    · rename_i hsame
      cases h
      exact .inl ⟨rfl, hsame⟩
    · cases h
      exact .inr rfl

/-- What a round of this bot is like before an intent is put in it. -/
theorem Inv.round (h : Inv V pairs log) (hown : V.own pairId = true) {side : Pair.Side}
    {qty now : ℚ} {r : PairRecord} (hr : roundFor V.symbol pairId side qty now pairs = .ok r) :
    r.symbol = V.symbol ∧ (r.terminal = true → .finished pairId ∈ log) ∧
      (r.intents.map Prod.fst).Nodup ∧
      ∀ key, Holds pairs pairId key → r.terminal = false ∧ r.Holds key := by
  rcases roundFor_ok hr with hlookup | ⟨hnone, rfl⟩
  · obtain ⟨hsymbol, hover⟩ := h.owned pairId r hlookup hown
    refine ⟨hsymbol, hover, h.wellformed.nodup hlookup, fun key hholds => ?_⟩
    obtain ⟨r', hr', hrest⟩ := hholds
    rw [hlookup, Option.some.injEq] at hr'
    exact hr' ▸ hrest
  · have hopen : (PairRecord.reserved V.symbol pairId side qty now).terminal = false := rfl
    refine ⟨rfl, fun hover => ?_, List.nodup_nil, fun key hholds => ?_⟩
    · rw [hopen] at hover
      cases hover
    obtain ⟨r', hr', -⟩ := hholds
    rw [hnone] at hr'
    cases hr'

/-- **An intent may be put in any slot, one that is marked as refused only in a free slot.** -/
theorem putIntent_inv (h : Inv V pairs log) (hown : V.own pairId = true) {side : Pair.Side}
    {kind : String} {qty now : ℚ} {value : Stored}
    (hsafe : value.refusal = true → Free log pairId (slotKey kind side)) {d : Pairs}
    (hd : putIntent V.symbol pairId side kind qty value now pairs = .ok (some d)) :
    Inv V d log := by
  obtain ⟨r, hr, ⟨hnone, -⟩ | hchange⟩ := putIntent_ok hd
  · cases hnone
  · obtain ⟨hsymbol, hover, hnodup, hholds⟩ := h.round hown hr
    cases hchange
    refine h.insert (nodup_insert hnodup _ _) (fun _ => ⟨hsymbol, hover⟩) (fun _ key' hkey' => ?_)
    obtain ⟨hopen, hr'⟩ := hholds key' hkey'
    cases hvalue : value.refusal with
    | false => exact .inr ⟨hopen, hr'.insert (fun _ => hvalue) now⟩
    | true =>
        -- the mark of a refusal takes the slot of the intent, and no other
        by_cases heq : key' = slotKey kind side
        · exact .inl (heq ▸ hsafe hvalue)
        · exact .inr ⟨hopen, hr'.insert (fun hsame => absurd hsame heq) now⟩

/-- Afterwards an open round holds what was put in it. -/
theorem putIntent_holds (h : Inv V pairs log) (hown : V.own pairId = true)
    (hopen : .finished pairId ∉ log) {side : Pair.Side} {kind : String} {qty now : ℚ}
    {value : Stored} (hvalue : value.refusal = false) {change : Option Pairs}
    (hd : putIntent V.symbol pairId side kind qty value now pairs = .ok change) :
    Holds (change.getD pairs) pairId (slotKey kind side) := by
  obtain ⟨r, hr, hput⟩ := putIntent_ok hd
  have hterminal : r.terminal = false := by
    by_contra hne
    exact hopen ((h.round hown hr).2.1 (by simpa using hne))
  rcases hput with ⟨rfl, hsame⟩ | rfl
  · rcases roundFor_ok hr with hlookup | ⟨-, rfl⟩
    · exact ⟨r, hlookup, hterminal, value, hsame, hvalue⟩
    · cases hsame
  · refine ⟨r.setIntent (slotKey kind side) value now, ?_, hterminal, value, ?_, hvalue⟩
    · show (insert pairs pairId _).lookup pairId = _
      rw [lookup_insert, if_pos rfl]
    · show (insert r.intents _ value).lookup _ = _
      rw [lookup_insert, if_pos rfl]

/-- The intent of a free slot may be dropped. -/
theorem dropIntent_inv (h : Inv V pairs log) {side : Pair.Side} {kind : String} {now : ℚ}
    (hfree : Free log pairId (slotKey kind side)) {d : Pairs}
    (hd : dropIntent pairId side kind now pairs = .ok (some d)) : Inv V d log := by
  unfold dropIntent at hd
  split at hd
  · cases hd
  · rename_i r hr
    split at hd
    · cases hd
    · cases hd
      refine h.insert ?_ (fun hown => h.owned pairId r hr hown) (fun _ key' hholds => ?_)
      · exact (h.wellformed.nodup hr).sublist (List.filter_sublist.map Prod.fst)
      · obtain ⟨r', hr', hopen, stored, hstored, hcounts⟩ := hholds
        rw [hr, Option.some.injEq] at hr'
        subst hr'
        by_cases heq : key' = slotKey kind side
        · exact .inl (heq ▸ hfree)
        · refine .inr ⟨hopen, stored, ?_, hcounts⟩
          show (r.intents.filter _).lookup key' = some stored
          rw [lookup_filter_ne heq, hstored]

theorem Stored.accept_refusal (orderId : String) (stored : Stored) :
    (stored.accept orderId).refusal = stored.refusal := by
  cases stored with
  | written i => rfl
  | tracked p => rfl

theorem storeAccepted_inv (h : Inv V pairs log) {side : Pair.Side} {orderId kind : String}
    {now : ℚ} {d : Pairs} (hd : storeAccepted pairId side orderId kind now pairs = .ok (some d)) :
    Inv V d log := by
  unfold storeAccepted at hd
  split at hd
  · cases hd
  · rename_i r hr
    split at hd
    · cases hd
    · rename_i value hvalue
      cases hd
      refine h.insert (nodup_insert (h.wellformed.nodup hr) _ _)
        (fun hown => h.owned pairId r hr hown) (fun _ key' hholds => ?_)
      obtain ⟨r', hr', hopen, stored, hstored, hcounts⟩ := hholds
      rw [hr, Option.some.injEq] at hr'
      subst hr'
      have hsame : key' = slotKey kind side → (value.accept orderId).refusal = false := by
        intro heq
        rw [heq, hvalue, Option.some.injEq] at hstored
        rw [Stored.accept_refusal, hstored, hcounts]
      exact .inr ⟨hopen, PairRecord.Holds.insert ⟨stored, hstored, hcounts⟩ hsame now⟩

/-- A checkpoint keeps the intents; only a round that is over is written as over. -/
theorem storeCheckpoint_inv (h : Inv V pairs log) {state : Saved} {terminal : Bool} {now : ℚ}
    (hover : terminal = true → .finished pairId ∈ log) {d : Pairs}
    (hd : storeCheckpoint pairId state terminal now pairs = .ok (some d)) : Inv V d log := by
  unfold storeCheckpoint at hd
  split at hd
  · cases hd
  · rename_i r hr
    cases hd
    have hnodup : (r.intents.map Prod.fst).Nodup := h.wellformed.nodup hr
    refine h.insert hnodup (fun hown => ⟨(h.owned pairId r hr hown).1, hover⟩)
      (fun _ key' hholds => ?_)
    obtain ⟨r', hr', -, hr''⟩ := hholds
    rw [hr, Option.some.injEq] at hr'
    subst hr'
    cases hterminal : terminal with
    | true => exact .inl (.inl (hover hterminal))
    | false => exact .inr ⟨rfl, hr''⟩

theorem storeCheckpoints_inv (h : Inv V pairs log) {checkpoints : List (String × Saved × Bool)}
    {now : ℚ} (hover : ∀ x ∈ checkpoints, x.2.2 = true → .finished x.1 ∈ log) {d : Pairs}
    (hd : storeCheckpoints checkpoints now pairs = .ok (some d)) : Inv V d log := by
  unfold storeCheckpoints at hd
  split at hd
  · cases hd
  · rename_i d' hfold
    cases hd
    -- the rounds one after the other, each from what the one before left
    induction checkpoints generalizing pairs with
    | nil =>
        cases hfold
        exact h
    | cons x rest ih =>
        rw [List.foldlM_cons] at hfold
        obtain ⟨d₁, hone, hrest⟩ := except_bind_ok hfold
        refine ih ?_ (fun y hy => hover y (List.mem_cons_of_mem _ hy)) hrest
        cases hstep : storeCheckpoint x.1 x.2.1 x.2.2 now pairs with
        | error e =>
            rw [hstep] at hone
            cases hone
        | ok change =>
            rw [hstep] at hone
            cases hone
            cases change with
            | none => exact h
            | some d₂ => exact storeCheckpoint_inv h (hover x List.mem_cons_self) hstep

end TradingFleet.Rtrade
