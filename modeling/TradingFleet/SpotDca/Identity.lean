import TradingFleet.SpotDca.Balance
import TradingFleet.SpotDca.Exits

set_option autoImplicit false

/-! # Intent identities

The identity of an intent spells out cycle, kind, side, volume and price, and nothing else, so it
can be read back: two intents have one identity exactly when they are the same instruction of the
same cycle. While an order is open, nothing but another take-profit is placed on its side. An
instruction that is given again after its order was acknowledged and has left the state, and a
take-profit that is given twice, are therefore the only ways in which a submission can carry the
identity of an older order.
-/

namespace TradingFleet.SpotDca

open TradingFleet.Lifecycle
open TradingFleet.Rounding (roundTo roundEven roundEven_intCast)

/-! ## Reading an identity back -/

/-- What stands before the first separator is determined by the text. -/
theorem separated_inj {c : Char} {a b x y : List Char} (ha : c ∉ a) (hb : c ∉ b)
    (h : a ++ c :: x = b ++ c :: y) : a = b ∧ x = y := by
  induction a generalizing b with
  | nil =>
      cases b with
      | nil => exact ⟨rfl, List.tail_eq_of_cons_eq h⟩
      | cons d b => exact absurd (List.head_eq_of_cons_eq h ▸ List.mem_cons_self) hb
  | cons d a ih =>
      cases b with
      | nil => exact absurd (List.head_eq_of_cons_eq h ▸ List.mem_cons_self) ha
      | cons d' b =>
          have htail : a ++ c :: x = b ++ c :: y := List.tail_eq_of_cons_eq h
          obtain ⟨hab, hxy⟩ := ih (fun hm => ha (List.mem_cons_of_mem _ hm))
            (fun hm => hb (List.mem_cons_of_mem _ hm)) htail
          exact ⟨by rw [hab, List.head_eq_of_cons_eq h], hxy⟩

section Decimals

/-- The digits behind the point. -/
def fractionDigits (n decimals : Nat) : List Char :=
  List.replicate (decimals - (Nat.toDigits 10 (n % 10 ^ decimals)).length) '0' ++
    Nat.toDigits 10 (n % 10 ^ decimals)

theorem decimalText_toList (x : ℚ) (decimals : Nat) :
    (decimalText x decimals).toList =
      (if roundEven (x * 10 ^ decimals) < 0 then ['-'] else []) ++
        Nat.toDigits 10 ((roundEven (x * 10 ^ decimals)).natAbs / 10 ^ decimals) ++
        (if decimals = 0 then []
          else '.' :: fractionDigits (roundEven (x * 10 ^ decimals)).natAbs decimals) := by
  unfold decimalText fractionDigits
  simp only [String.toList_append, Nat.toString_eq_repr, Nat.toList_repr]
  congr 1
  · congr 1
    split
    · rfl
    · rfl
  · split
    · rfl
    · simp only [String.toList_append, String.toList_ofList]
      rfl

theorem fractionDigits_length {n decimals : Nat} (h : decimals ≠ 0) :
    (fractionDigits n decimals).length = decimals := by
  have hlt : n % 10 ^ decimals < 10 ^ decimals := Nat.mod_lt _ (by positivity)
  have hlen := (Nat.length_toDigits_le_iff (by decide) (Nat.pos_of_ne_zero h)).mpr hlt
  unfold fractionDigits
  rw [List.length_append, List.length_replicate]
  omega

/-- The digits of a decimal text, read as one number. -/
theorem ofDigitChars_decimal (n decimals : Nat) :
    Nat.ofDigitChars 10 (Nat.toDigits 10 (n / 10 ^ decimals) ++
      (if decimals = 0 then [] else fractionDigits n decimals)) 0 = n := by
  by_cases h : decimals = 0
  · rw [if_pos h, List.append_nil, Nat.ofDigitChars_ten_toDigits, h]
    simp
  · rw [if_neg h, Nat.ofDigitChars_append, Nat.ofDigitChars_ten_toDigits,
      Nat.ofDigitChars_eq_ofDigitChars_zero, fractionDigits_length h]
    have hread : Nat.ofDigitChars 10 (fractionDigits n decimals) 0 = n % 10 ^ decimals := by
      unfold fractionDigits
      rw [Nat.ofDigitChars_append, Nat.ofDigitChars_replicate_zero, Nat.mul_zero,
        Nat.ofDigitChars_ten_toDigits]
    rw [hread]
    exact Nat.div_add_mod n (10 ^ decimals)

theorem isDigit_fractionDigits {n decimals : Nat} {c : Char} (h : c ∈ fractionDigits n decimals) :
    c.isDigit = true := by
  rcases List.mem_append.mp h with h | h
  · rw [List.eq_of_mem_replicate h]
    rfl
  · exact Nat.isDigit_of_mem_toDigits (by decide) (by decide) h

theorem filter_digits {l : List Char} (h : ∀ c ∈ l, c.isDigit = true) :
    l.filter Char.isDigit = l := List.filter_eq_self.mpr h

/-- Dropping sign and point leaves the digits. -/
theorem decimalText_digits (x : ℚ) (decimals : Nat) :
    (decimalText x decimals).toList.filter Char.isDigit =
      Nat.toDigits 10 ((roundEven (x * 10 ^ decimals)).natAbs / 10 ^ decimals) ++
        (if decimals = 0 then []
          else fractionDigits (roundEven (x * 10 ^ decimals)).natAbs decimals) := by
  have hwhole : ∀ n, (Nat.toDigits 10 n).filter Char.isDigit = Nat.toDigits 10 n := fun n =>
    filter_digits (fun c hc => Nat.isDigit_of_mem_toDigits (by decide) (by decide) hc)
  have hsign : (if roundEven (x * 10 ^ decimals) < 0 then ['-'] else []).filter Char.isDigit =
      [] := by
    split
    · rfl
    · rfl
  rw [decimalText_toList, List.filter_append, List.filter_append, hsign, List.nil_append, hwhole]
  congr 1
  split
  · rfl
  · rw [List.filter_cons_of_neg (by decide), filter_digits (fun c hc => isDigit_fractionDigits hc)]

theorem decimalText_head (x : ℚ) (decimals : Nat) :
    (decimalText x decimals).toList.head? = some '-' ↔ roundEven (x * 10 ^ decimals) < 0 := by
  rw [decimalText_toList]
  by_cases h : roundEven (x * 10 ^ decimals) < 0
  · simp [h]
  · rw [if_neg h, List.nil_append]
    constructor
    · intro hhead
      exfalso
      cases hdigits : Nat.toDigits 10 ((roundEven (x * 10 ^ decimals)).natAbs / 10 ^ decimals) with
      | nil => exact Nat.toDigits_ne_nil hdigits
      | cons d ds =>
          rw [hdigits] at hhead
          have hd : d = '-' := by simpa using hhead
          have hdigit : d.isDigit = true :=
            Nat.isDigit_of_mem_toDigits (by decide) (by decide) (hdigits ▸ List.mem_cons_self)
          rw [hd] at hdigit
          cases hdigit
    · exact fun hneg => absurd hneg h

/-- A decimal text tells the rounded number. -/
theorem decimalText_inj {x y : ℚ} {decimals : Nat}
    (h : decimalText x decimals = decimalText y decimals) :
    roundEven (x * 10 ^ decimals) = roundEven (y * 10 ^ decimals) := by
  have habs : (roundEven (x * 10 ^ decimals)).natAbs = (roundEven (y * 10 ^ decimals)).natAbs := by
    have hdigits := congrArg (fun t => Nat.ofDigitChars 10 (t.toList.filter Char.isDigit) 0) h
    simp only [decimalText_digits, ofDigitChars_decimal] at hdigits
    exact hdigits
  have hsign : roundEven (x * 10 ^ decimals) < 0 ↔ roundEven (y * 10 ^ decimals) < 0 := by
    rw [← decimalText_head, ← decimalText_head, h]
  omega

theorem colon_notMem_decimalText (x : ℚ) (decimals : Nat) :
    ':' ∉ (decimalText x decimals).toList := by
  have hdigit : ∀ n, ':' ∉ Nat.toDigits 10 n := by
    intro n hm
    have := Nat.isDigit_of_mem_toDigits (by decide) (by decide) hm
    cases this
  rw [decimalText_toList]
  intro hm
  rcases List.mem_append.mp hm with hm | hm
  · rcases List.mem_append.mp hm with hm | hm
    · split at hm
      · exact absurd (List.mem_singleton.mp hm) (by decide)
      · cases hm
    · exact hdigit _ hm
  · split at hm
    · cases hm
    · rcases List.mem_cons.mp hm with hm | hm
      · exact absurd hm (by decide)
      · have := isDigit_fractionDigits hm
        cases this

end Decimals

theorem OnGrid.eq_of_round {x y : ℚ} {decimals : Nat} (hx : OnGrid decimals x)
    (hy : OnGrid decimals y) (h : roundEven (x * 10 ^ decimals) = roundEven (y * 10 ^ decimals)) :
    x = y := by
  obtain ⟨n, rfl⟩ := hx
  obtain ⟨m, rfl⟩ := hy
  have hpow : (10 : ℚ) ^ decimals ≠ 0 := by positivity
  rw [div_mul_cancel₀ _ hpow, div_mul_cancel₀ _ hpow, roundEven_intCast, roundEven_intCast] at h
  rw [h]

theorem kind_text_inj {k k' : Kind} (h : k.text = k'.text) : k = k' := by
  have := congrArg Kind.ofText h
  rw [Kind.ofText_text, Kind.ofText_text] at this
  exact Option.some.inj this

theorem sideText_inj {side side' : Side} (h : sideText side = sideText side') : side = side' := by
  cases side with
  | buy =>
      cases side' with
      | buy => rfl
      | sell => exact absurd h (by decide)
  | sell =>
      cases side' with
      | buy => exact absurd h (by decide)
      | sell => rfl

/-- The instruction and the cycle can be read off the identity. -/
theorem intentIdentity_inj {S : Setup} {cycle cycle' : Nat} {side side' : Side} {kind kind' : Kind}
    {vol vol' price price' : ℚ} (hvol : OnGrid S.precision.volumeDecimals vol)
    (hvol' : OnGrid S.precision.volumeDecimals vol') (hprice : OnGrid S.precision.priceDecimals price)
    (hprice' : OnGrid S.precision.priceDecimals price')
    (h : intentIdentity S cycle side kind vol price =
      intentIdentity S cycle' side' kind' vol' price') :
    cycle = cycle' ∧ side = side' ∧ kind = kind' ∧ vol = vol' ∧ price = price' := by
  have hlist := congrArg String.toList h
  unfold intentIdentity at hlist
  simp only [String.toList_append, List.append_assoc, List.append_cancel_left_eq,
    Nat.toString_eq_repr, Nat.toList_repr] at hlist
  have hcolon : (":" : String).toList = [':'] := rfl
  simp only [hcolon, List.singleton_append] at hlist
  have hnotDigits : ∀ n, ':' ∉ Nat.toDigits 10 n := by
    intro n hm
    have := Nat.isDigit_of_mem_toDigits (by decide) (by decide) hm
    cases this
  have hnotKind : ∀ k : Kind, ':' ∉ k.text.toList := by
    intro k
    cases k <;> decide
  have hnotSide : ∀ s : Side, ':' ∉ (sideText s).toList := by
    intro s
    cases s <;> decide
  -- one field after the other
  obtain ⟨hcycle, hlist⟩ := separated_inj (hnotDigits _) (hnotDigits _) hlist
  obtain ⟨hkind, hlist⟩ := separated_inj (hnotKind _) (hnotKind _) hlist
  obtain ⟨hside, hlist⟩ := separated_inj (hnotSide _) (hnotSide _) hlist
  obtain ⟨hvolText, hpriceText⟩ := separated_inj (colon_notMem_decimalText _ _)
    (colon_notMem_decimalText _ _) hlist
  refine ⟨?_, sideText_inj (String.toList_injective hside),
    kind_text_inj (String.toList_injective hkind), ?_, ?_⟩
  · have hread := congrArg (fun digits => Nat.ofDigitChars 10 digits 0) hcycle
    simpa only [Nat.ofDigitChars_ten_toDigits] using hread
  · exact hvol.eq_of_round hvol' (decimalText_inj (String.toList_injective hvolText))
  · exact hprice.eq_of_round hprice' (decimalText_inj (String.toList_injective hpriceText))

/-! ## Where identities come from -/

/-- An intent of the cycle: made from an instruction, and rewritten since. -/
def Intent.Named (S : Setup) (cycle : Nat) (p : Intent) : Prop :=
  ∃ (i : Instruction) (clientOrderId : String) (t : ℚ),
    (i.intent S cycle clientOrderId t).Follows p

/-- The submissions and the tracked orders of the log carry the identity of what they are. What is
not a take-profit was submitted with no order open on its side. -/
def Entry.Named (S : Setup) (e : Entry) : Prop :=
  match e.event with
  | .submit order _ =>
      order.intentId =
          intentIdentity S e.before.cycle order.side order.kind order.vol order.price ∧
        intentClientOrderId S.digest S.venueLabel order.intentId = some order.clientOrderId ∧
        OnGrid S.precision.volumeDecimals order.vol ∧
        OnGrid S.precision.priceDecimals order.price ∧
        (order.kind ≠ .tp → e.before.hasOpen order.side = false)
  | .tracked o =>
      o.intentId = some (intentIdentity S e.before.cycle o.side o.kind o.vol o.price) ∧
        OnGrid S.precision.volumeDecimals o.vol ∧ OnGrid S.precision.priceDecimals o.price
  | _ => True

/-- The pending intent in a state belongs to the state's cycle. -/
def State.Named (S : Setup) (s : State) : Prop := ∀ p, s.pendingIntent = some p → p.Named S s.cycle

structure World.Named (S : Setup) (w : World) : Prop where
  pending : w.s.Named S
  saved : w.saved.Named S
  log : ∀ e ∈ w.log, e.Named S

section Naming

variable {S : Setup} {w w' : World}

theorem Intent.Named.follows {cycle : Nat} {p q : Intent} (h : p.Named S cycle)
    (hpq : p.Follows q) : q.Named S cycle := by
  obtain ⟨i, clientOrderId, t, hp⟩ := h
  exact ⟨i, clientOrderId, t, hp.trans hpq⟩

/-- The order of a pending intent is the instruction the intent was made from. -/
theorem Intent.Named.tracked {p : Intent} (h : p.Named S w.s.cycle) :
    Entry.Named S ⟨w.s, w.saved, .tracked (orderFromPending p)⟩ := by
  obtain ⟨i, clientOrderId, t, hp⟩ := h
  have hkind : (orderFromPending p).kind = i.kind := by
    show (p.kind.bind Kind.ofText).getD .tp = i.kind
    rw [hp.kind]
    show ((some i.kind.text).bind Kind.ofText).getD .tp = i.kind
    rw [Option.bind_some, Kind.ofText_text]
    rfl
  have hside : (orderFromPending p).side = i.side := hp.side
  have hvol : (orderFromPending p).vol = (i.rounded S).vol := hp.requestedQty
  have hprice : (orderFromPending p).price = (i.rounded S).price := by
    show p.requestedPrice.getD 0 = _
    rw [hp.requestedPrice]
    rfl
  have hid : (orderFromPending p).intentId =
      some (intentIdentity S w.s.cycle i.side i.kind (i.rounded S).vol (i.rounded S).price) :=
    congrArg some hp.intentId
  show (orderFromPending p).intentId = some (intentIdentity S w.s.cycle (orderFromPending p).side
      (orderFromPending p).kind (orderFromPending p).vol (orderFromPending p).price) ∧ _
  rw [hkind, hside, hvol, hprice]
  exact ⟨hid, onGrid_roundTo _ _, onGrid_roundTo _ _⟩

/-- Only a take-profit is placed next to an order of its side. -/
theorem Placing.alone {s : State} {i : Instruction} (h : Placing S s i) (hkind : i.kind ≠ .tp) :
    s.hasOpen i.side = false := by
  have hempty : ∀ side, s.orders = [] → s.hasOpen side = false := by
    intro side horders
    unfold State.hasOpen
    rw [horders]
    rfl
  cases h with
  | entry vol price hexit hopen hbudget => exact hopen
  | dca vol price amount free scale hexit hopen hcount hspent hfree hamount => exact hopen
  | trendEntry vol price hexit horders hbudget => exact hempty .buy horders
  | tp vol price hexit => exact absurd rfl hkind
  | exit e price hexit horders => exact hempty .sell horders

theorem Entry.named_quiet {e : Entry} (h : e.event.quiet = true) : e.Named S := by
  unfold Entry.Named
  cases he : e.event <;> rw [he] at h <;> first | exact trivial | cases h

/-- One more entry. -/
theorem World.Named.cons {e : Entry} (hw : w.Named S) (he : e.Named S) :
    ∀ e' ∈ e :: w.log, e'.Named S := by
  intro e' hmem
  rcases List.mem_cons.mp hmem with rfl | hmem
  · exact he
  · exact hw.log e' hmem

/-- The intent stays, or there is none. -/
theorem State.Named.congr {s s' : State} (h : s.Named S)
    (hsame : s'.pendingIntent = s.pendingIntent ∧ s'.cycle = s.cycle ∨ s'.pendingIntent = none) :
    s'.Named S := by
  intro p hp
  rcases hsame with ⟨hpending, hcycle⟩ | hnone
  · rw [hcycle]
    exact h p (hpending ▸ hp)
  · rw [hnone] at hp
    cases hp

theorem Move.named (h : Move S w w') (hw : w.Named S) : w'.Named S := by
  have hsame : ∀ s' : State, s'.pendingIntent = w.s.pendingIntent → s'.cycle = w.s.cycle →
      s'.Named S := fun s' hpending hcycle => hw.pending.congr (Or.inl ⟨hpending, hcycle⟩)
  cases h with
  | note h => exact ⟨hsame _ (by rw [h]) (by rw [h]), hw.saved, hw.log⟩
  | called n failed events h =>
      refine ⟨hw.pending, hw.saved, fun e he => ?_⟩
      rcases List.mem_append.mp he with he | he
      · obtain ⟨event, hevent, rfl⟩ := List.mem_map.mp he
        exact Entry.named_quiet (h event hevent)
      · exact hw.log e he
  | saved => exact ⟨hw.pending, hw.pending, hw.log⟩
  | intended hfree h => exact ⟨hw.pending, hw.saved, hw.cons trivial⟩
  | pend hp hfree h =>
      refine ⟨fun q hq => ?_, hw.saved, hw.log⟩
      obtain ⟨t, ht⟩ := hp
      have hpq : _ = q := Option.some.inj hq
      rw [← hpq, ht]
      exact ⟨_, _, t, Pending.Follows.refl _⟩
  | submit answer hp hpending h =>
      refine ⟨hw.pending, hw.saved, hw.cons ?_⟩
      -- the submit goes out as the pending intent says
      exact ⟨rfl, h.client, onGrid_roundTo _ _, onGrid_roundTo _ _, h.placing.alone⟩
  | rewrite hp h =>
      refine ⟨fun q hq => ?_, hw.saved, hw.log⟩
      have hpq : _ = q := Option.some.inj hq
      rw [← hpq]
      exact (hw.pending _ hp).follows h
  | release hp h => exact ⟨hw.pending.congr (Or.inr rfl), hw.saved, hw.log⟩
  | track hp h =>
      exact ⟨hw.pending.congr (Or.inr rfl), hw.saved, hw.cons (hw.pending _ hp).tracked⟩
  | cancelled h => exact ⟨hsame _ rfl rfl, hw.saved, hw.log⟩
  | dropped h => exact ⟨hsame _ rfl rfl, hw.saved, hw.log⟩
  | paperPlaced t hpaper hsize h => exact ⟨hsame _ rfl rfl, hw.saved, hw.cons trivial⟩
  | ignored ho hlive h => exact ⟨hw.pending, hw.saved, hw.log⟩
  | booked ho hlive h =>
      refine ⟨hsame _ (State.reported_pendingIntent _ _ _) (State.reported_exit_cycle _ _ _).2, hw.saved,
        hw.log⟩
  | paperFilled ho hpaper =>
      refine ⟨hsame _ (State.filled_pendingIntent _ _) (State.filled_cycle _ _), hw.saved, hw.log⟩
  | flattened =>
      refine ⟨hsame _ (State.flattened_pendingIntent _ _) (State.flattened_cycle _ _).1,
        hw.saved, hw.log⟩
  | held kind price hflat => exact ⟨hsame _ rfl rfl, hw.saved, hw.log⟩
  | closed kind price hflat horders hpending =>
      exact ⟨hw.pending.congr (Or.inr rfl), hw.saved, hw.log⟩
  | exitMarked e h => exact ⟨hsame _ rfl rfl, hw.saved, hw.log⟩
  | positionAdopted qty hqty horders hflat hspent hcost => exact ⟨hsame _ rfl rfl, hw.saved, hw.log⟩
  | restarted => exact ⟨hw.saved, hw.saved, hw.cons trivial⟩

theorem named_initial (S : Setup) : World.initial.Named S := by
  constructor
  · intro p hp
    cases hp
  · intro p hp
    cases hp
  · intro e he
    cases he

theorem Reachable.named (h : Reachable S w) : w.Named S :=
  h.invariant (I := fun w => w.Named S) (named_initial S) (fun _ _ hmove hw => hmove.named hw)

end Naming

/-! ## Repeated instructions -/

/-- A submission gives an instruction whose order was acknowledged in the same cycle. -/
def Entry.repeats (later earlier : Entry) : Bool :=
  match later.event, earlier.event with
  | .submit order _, .tracked o =>
      later.before.cycle = earlier.before.cycle && order.side = o.side && order.kind = o.kind &&
        order.vol = o.vol && order.price = o.price
  | _, _ => false

/-- Before the submission its side has an open order, and it is not a take-profit. -/
def Entry.besideOpen (e : Entry) : Bool :=
  match e.event with
  | .submit order _ => order.kind ≠ .tp && e.before.hasOpen order.side
  | _ => false

/-- The submission does not give again what an acknowledged order asked for that has left the state,
nor a take-profit a second time. -/
def Entry.fresh (later earlier : Entry) : Bool := !later.repeats earlier || later.besideOpen

/-- A submission carries the identity of an order that was acknowledged before it. -/
def Entry.reuses (later earlier : Entry) : Bool :=
  match later.event, earlier.event with
  | .submit order _, .tracked o => o.intentId = some order.intentId
  | _, _ => false

/-- The client IDs of two identities differ. -/
def InjectiveHash (S : Setup) : Prop :=
  ∀ (cycle cycle' : Nat) (side side' : Side) (kind kind' : Kind) (vol vol' price price' : ℚ)
    (clientOrderId : String),
    intentClientOrderId S.digest S.venueLabel (intentIdentity S cycle side kind vol price) =
        some clientOrderId →
      intentClientOrderId S.digest S.venueLabel (intentIdentity S cycle' side' kind' vol' price') =
        some clientOrderId →
      intentIdentity S cycle side kind vol price = intentIdentity S cycle' side' kind' vol' price'

/-- The venue has an acknowledged order under the client ID it was submitted with; `clientOf` is
the client ID it has for an order. -/
def Entry.knownAs (S : Setup) (clientOf : String → Option String) (e : Entry) : Bool :=
  match e.event with
  | .tracked o => clientOf o.txid = o.intentId.bind (intentClientOrderId S.digest S.venueLabel)
  | _ => true

/-- The orders a lookup by the client ID of the submission can find at the venue. -/
def Entry.findable (clientOf : String → Option String) (e : Entry) (txid : String) : Prop :=
  match e.event with
  | .submit order _ => clientOf txid = some order.clientOrderId
  | _ => False

def Entry.acknowledges (e : Entry) (txid : String) : Prop :=
  match e.event with
  | .tracked o => o.txid = txid
  | _ => False

section Repeats

variable {S : Setup} {later earlier : Entry}

/-- The same identity is the same instruction in the same cycle. -/
theorem Entry.repeats_of_reuses (hlater : later.Named S) (hearlier : earlier.Named S)
    (h : later.reuses earlier = true) : later.repeats earlier = true := by
  unfold Entry.reuses at h
  unfold Entry.repeats
  unfold Entry.Named at hlater hearlier
  cases hl : later.event with
  | submit order answer =>
      cases he : earlier.event with
      | tracked o =>
          rw [hl, he] at h
          rw [hl] at hlater
          rw [he] at hearlier
          obtain ⟨hid, -, hvol, hprice, -⟩ := hlater
          obtain ⟨hid', hvol', hprice'⟩ := hearlier
          have hsame : some (intentIdentity S earlier.before.cycle o.side o.kind o.vol o.price) =
              some order.intentId := hid'.symm.trans (of_decide_eq_true h)
          rw [hid] at hsame
          obtain ⟨hcycle, hside, hkind, hv, hp⟩ :=
            intentIdentity_inj hvol' hvol hprice' hprice (Option.some.inj hsame)
          simp [hcycle, hside, hkind, hv, hp]
      | submit | orderByClientId | orderStatus | cancelOrder | intended | placed | restarted =>
          rw [hl, he] at h
          cases h
  | tracked | orderByClientId | orderStatus | cancelOrder | intended | placed | restarted =>
      rw [hl] at h
      cases h

/-- The guards of the strategy leave no submission beside an open order of its side. -/
theorem Entry.Named.not_besideOpen (h : later.Named S) : later.besideOpen = false := by
  unfold Entry.Named at h
  unfold Entry.besideOpen
  cases he : later.event with
  | submit order answer =>
      rw [he] at h
      obtain ⟨-, -, -, -, halone⟩ := h
      by_cases hkind : order.kind = .tp
      · simp [hkind]
      · simp [halone hkind]
  | tracked | orderByClientId | orderStatus | cancelOrder | intended | placed | restarted => rfl

theorem Entry.not_reuses (hlater : later.Named S) (hearlier : earlier.Named S)
    (h : later.fresh earlier = true) : later.reuses earlier = false := by
  cases hreuses : later.reuses earlier with
  | false => rfl
  | true =>
      have hrepeats := Entry.repeats_of_reuses hlater hearlier hreuses
      unfold Entry.fresh at h
      rw [hrepeats, hlater.not_besideOpen] at h
      cases h

/-- With one client ID per identity, a lookup finds no order that was acknowledged before the
submission. -/
theorem Entry.not_findable {clientOf : String → Option String} (hhash : InjectiveHash S)
    (hknown : earlier.knownAs S clientOf = true) (hlater : later.Named S)
    (hnamed : earlier.Named S) (h : later.reuses earlier = false) (txid : String)
    (hfind : later.findable clientOf txid) : ¬ earlier.acknowledges txid := by
  intro hack
  unfold Entry.findable at hfind
  unfold Entry.acknowledges at hack
  unfold Entry.Named at hlater hnamed
  cases hl : later.event with
  | submit order answer =>
      cases he : earlier.event with
      | tracked o =>
          rw [hl] at hfind hlater
          rw [he] at hack hnamed
          obtain ⟨hid, hclient, -, -, -⟩ := hlater
          obtain ⟨hid', -, -⟩ := hnamed
          have htxid : o.txid = txid := hack
          have hclient' : clientOf txid = intentClientOrderId S.digest S.venueLabel
              (intentIdentity S earlier.before.cycle o.side o.kind o.vol o.price) := by
            unfold Entry.knownAs at hknown
            rw [he] at hknown
            have hc : clientOf o.txid = o.intentId.bind _ := of_decide_eq_true hknown
            rw [← htxid, hc, hid', Option.bind_some]
          have hsame := hhash _ _ _ _ _ _ _ _ _ _ _ (hclient'.symm.trans hfind) (hid ▸ hclient)
          have hreuse : later.reuses earlier = true := by
            unfold Entry.reuses
            rw [hl, he]
            refine decide_eq_true ?_
            rw [hid', hid, hsame]
          rw [h] at hreuse
          cases hreuse
      | submit | orderByClientId | orderStatus | cancelOrder | intended | placed | restarted =>
          rw [he] at hack
          exact hack
  | tracked | orderByClientId | orderStatus | cancelOrder | intended | placed | restarted =>
      rw [hl] at hfind
      exact hfind

end Repeats

/-- The point of the price stands in the last 32 characters of an identity. -/
theorem uuidHexSuffix_intentIdentity {S : Setup} (hpos : S.precision.priceDecimals ≠ 0)
    (hle : S.precision.priceDecimals ≤ 31) (cycle : Nat) (side : Side) (kind : Kind)
    (vol price : ℚ) : uuidHexSuffix (intentIdentity S cycle side kind vol price) = none := by
  have hform : ∃ front digits, digits.length = S.precision.priceDecimals ∧
      (intentIdentity S cycle side kind vol price).toList = front ++ '.' :: digits := by
    unfold intentIdentity
    simp only [String.toList_append]
    rw [decimalText_toList price, if_neg hpos, ← List.append_assoc]
    exact ⟨_, _, fractionDigits_length hpos, rfl⟩
  obtain ⟨front, digits, hlength, hform⟩ := hform
  unfold uuidHexSuffix
  rw [hform]
  refine if_neg (fun h => ?_)
  have hdrop : (front ++ '.' :: digits).length - 32 ≤ front.length := by
    rw [List.length_append, List.length_cons]
    omega
  have hpoint : '.' ∈ (front ++ '.' :: digits).drop ((front ++ '.' :: digits).length - 32) := by
    rw [List.drop_append_of_le_length hdrop]
    exact List.mem_append_right _ List.mem_cons_self
  have := List.all_eq_true.mp h.2 _ hpoint
  cases this

theorem injectiveHash_of_digest {S : Setup} (hdigest : Function.Injective S.digest)
    (hpos : S.precision.priceDecimals ≠ 0) (hle : S.precision.priceDecimals ≤ 31) :
    InjectiveHash S := by
  intro cycle cycle' side side' kind kind' vol vol' price price' clientOrderId h h'
  unfold intentClientOrderId at h h'
  rw [uuidHexSuffix_intentIdentity hpos hle] at h h'
  have hsame := h.trans h'.symm
  simp only at hsame
  -- every venue puts its own text in front of the same token
  split at hsame
  · exact hdigest (Option.some.inj hsame)
  · split at hsame
    · exact hdigest (String.append_right_inj _ |>.mp (Option.some.inj hsame))
    · split at hsame
      · exact hdigest (String.append_right_inj _ |>.mp (Option.some.inj hsame))
      · rename_i hkraken hbinance hhyperliquid
        simp [hkraken, hbinance, hhyperliquid] at h

/-- The entry is filled by call 7. The call `canceled` says that the take-profit is canceled. -/
def takeProfitCanceled (canceled : Nat) : Setup :=
  sampleSetup { sampleVenue with
    orderStatus := fun n => .ok (.ok (
      if n = 7 then boughtReport
      else if n = canceled then
        sampleStatus .canceled 0 0 OrderStatus.nothing_nonneg OrderStatus.nothing_nonneg
      else openReport)) }

def takeProfitRun : List Action :=
  [.step 100 {}, .reconcile 100, .step 100 {}, .reconcile 100, .step 100 {}]

/-- The client IDs of the entry and of the take-profit. -/
def sampleClientOf (txid : String) : Option String :=
  if txid = "O-4" then some "dspot-dca:Kraken:ABCUSD:cycle-1:ENTRY:buy:1.00:100.00"
  else if txid = "O-12" then some "dspot-dca:Kraken:ABCUSD:cycle-1:TP:sell:0.99:110.00"
  else none

end TradingFleet.SpotDca
