import TradingFleet.Lifecycle.Tracked

set_option autoImplicit false

/-! # The order ID of a response

Three places take the order ID out of a venue response: `extract_order_id` of
`providers/strategy_executor.py`, `_order_fields` of the lifecycle (directly, and inside
`submit` on the captured outcome), and the pair `_accepted_order_payload` and
`_order_id_from_payload` of `instrument.py`. They pick the value by presence, by truthiness and
from different keys, and only two of them take a list apart. `order_id_extractors_agree_iff`
says for which responses they agree.
-/

namespace TradingFleet.Lifecycle

open TradingFleet.Text

/-! ## The extractor of an instrument -/

def rejectedStatuses : List String := ["REJECTED", "CANCELED", "CANCELLED", "EXPIRED", "FAILED"]

/-- `str(payload.get("status") or "").upper()` is a rejection. -/
def NativeRecord.rejected (r : NativeRecord) : Bool :=
  rejectedStatuses.contains (upper (r.status.getD ""))

/-- `payload.get("orderId", payload.get("id", payload.get("txid")))`. -/
def NativeRecord.nativeId (r : NativeRecord) : Val :=
  (r.orderId <|> r.id <|> r.txid).getD .nothing

/-- `str(value).strip()` is not empty, for a value or an item of a list. -/
def Val.anyText : Val → Bool
  | .nothing => false
  | .scalar value => !blank value.str
  | .items l => l.any (fun item => !blank item.str)

/-- `_accepted_order_payload`. -/
def acceptedOrderPayload : Native → Bool
  | .value _ => false
  | .record r => if r.rejected then false else r.nativeId.anyText

/-- `_order_id_from_payload`. -/
def orderIdFromPayload : Native → Option String
  | .value _ => none
  | .record r => match r.nativeId.firstItem with
      | .nothing => none
      | v => some v.str

/-! ## Agreement -/

/-- `fields.get("order_id")`, which every caller tests for truth. -/
def lifecycleId (native : Native) : Option String :=
  (orderFields native).orderId.filter (fun s => s ≠ "")

/-- The extractors agree on whether the response has an order ID, and on the ID. -/
structure AgreeOn (native : Native) : Prop where
  direct : lifecycleId native = extractOrderId native
  submitted : ∀ p : Pending Unit, p.orderId = none →
    (p.submitted (captureSubmission (.ok (.native native)))).orderId.filter (fun s => s ≠ "") =
      extractOrderId native
  instrument : ∀ r, native = .record r → r.rejected = false →
    acceptedOrderPayload native = (extractOrderId native).isSome ∧
      (acceptedOrderPayload native = true → orderIdFromPayload native = extractOrderId native)

/-! ## Uniform responses -/

/-- No list, and no text of blanks. -/
def Val.single : Val → Bool
  | .items _ => false
  | .text s => s = "" || !blank s
  | _ => true

/-- `null` or the empty text. -/
def Val.silent : Val → Bool
  | .nothing => true
  | .text s => s = ""
  | _ => false

/-- The text a value spells: a scalar that is not blank, or the first such item of a list. -/
def Val.word (v : Val) : Option String :=
  match v.firstItem with
  | .nothing => none
  | w => if blank w.str then none else some w.str

namespace NativeRecord

/-- The value under the first of `orderId`, `order_id` and `id` that is there. -/
def lead (r : NativeRecord) : Option Val := r.orderId <|> r.order_id <|> r.id

/-- The first true value under these keys. -/
def truthyId (r : NativeRecord) : Option Val :=
  ([r.orderId, r.order_id, r.id].filterMap (fun v => v)).find? Val.truthy

/-- The value under `txid`. -/
def fallback (r : NativeRecord) : Val := r.txid.getD .nothing

/-- The lifecycle and `extract_order_id` read one text. A true leading value has to be single, and
so has `txid` when there is no other candidate. A leading value that is null, or false and spells
something (`0`, `False`), has to be matched by what the lifecycle goes on to; after an empty text
or list that has to be nothing. -/
def lifecycleMeets (r : NativeRecord) : Bool :=
  let rest := r.truthyId.getD r.fallback
  match r.lead with
  | none => r.fallback.single
  | some v =>
      if v.truthy then v.single
      else if v = .nothing then
        match r.truthyId with
        | none => r.fallback.single
        | some y => r.fallback.word = some y.str
      else
        match v.word with
        | none => rest.silent
        | some s => rest ≠ .nothing && rest.str = s

/-- The instrument, which ignores `order_id` and stops at a null, reads that text too. -/
def instrumentMeets (r : NativeRecord) : Bool :=
  match r.orderId, r.order_id with
  | some v, _ => v ≠ .nothing || r.fallback.word = none
  | none, none => r.id ≠ some .nothing || r.fallback.word = none
  | none, some v =>
      let other := (r.id <|> r.txid).getD .nothing
      match (if v = .nothing then r.fallback else v).word with
      | none => !other.anyText
      | some s => other.word = some s

end NativeRecord

/-- The condition on a response. -/
def Native.uniform : Native → Bool
  | .value (.scalar (.decimal _)) => false
  | .value (.items l) => (Val.items l).word = none
  | .value _ => true
  | .record r => r.lifecycleMeets && (r.rejected || r.instrumentMeets)

/-! ## Values -/

/-- A number is never blank. -/
theorem blank_number (n : Int) : blank (toString n) = false := by
  have hdigits : ∀ m : Nat, ∃ c l, (toString m).toList = c :: l ∧ isSpace c = false := by
    intro m
    cases hd : Nat.toDigits 10 m with
    | nil => exact absurd hd Nat.toDigits_ne_nil
    | cons c l =>
        have hc : c.isDigit = true :=
          Nat.isDigit_of_mem_toDigits (b := 10) (n := m) (by decide) (by decide) (by simp [hd])
        exact ⟨c, l, by rw [Nat.toString_eq_ofList_toDigits, String.toList_ofList, hd],
          isDigit_not_space hc⟩
  cases n with
  | ofNat m =>
      obtain ⟨c, l, hl, hc⟩ := hdigits m
      exact blank_of_prefix _ hl hc
  | negSucc m =>
      refine blank_of_prefix (c := '-') (l := (toString (m + 1)).toList) _ ?_ (by decide)
      show (Int.repr (Int.negSucc m)).toList = _
      simp [Int.repr]

theorem ne_empty_of_not_blank {s : String} (h : blank s = false) : s ≠ "" := by
  intro hs
  rw [hs] at h
  revert h
  decide

/-- Only a text is ever blank. -/
theorem Scalar.not_blank {value : Scalar} (h : ∀ s, value ≠ .text s) : blank value.str = false := by
  cases value with
  | nothing => decide
  | flag b => cases b <;> decide
  | number n => exact blank_number n
  | decimal d => exact d.nonblank
  | text s => exact absurd rfl (h s)

theorem length_le_flatMap {f : Char → List Char} (hf : ∀ c, 1 ≤ (f c).length) (l : List Char) :
    l.length ≤ (l.flatMap f).length := by
  induction l with
  | nil => exact le_refl _
  | cons c l ih =>
      rw [List.flatMap_cons, List.length_append, List.length_cons]
      have := hf c
      omega

/-- `repr` is at least as long as `str`. -/
theorem Scalar.str_length_le (value : Scalar) : value.str.length ≤ value.repr.length := by
  cases value with
  | text s =>
      show s.length ≤ (quoted s).length
      unfold quoted
      simp only [String.length_ofList, List.length_append, List.length_cons, List.length_nil]
      have hesc : ∀ quote c, 1 ≤ (escapeChar quote c).length := by
        intro quote c
        unfold escapeChar
        split_ifs <;> simp
      have hlen := fun quote => length_le_flatMap (hesc quote) s.toList
      simp only [String.length_toList] at hlen
      have := hlen (if s.toList.contains singleQuote && !s.toList.contains doubleQuote then
        doubleQuote else singleQuote)
      omega
  | nothing => exact le_refl _
  | flag b => exact le_refl _
  | number n => exact le_refl _
  | decimal d => exact le_refl _

theorem length_le_intercalate {sep : String} {l : List String} {s : String} (h : s ∈ l) :
    s.length ≤ (sep.intercalate l).length := by
  induction l with
  | nil => cases h
  | cons t l ih =>
      cases l with
      | nil =>
          rw [List.mem_singleton.mp h, String.intercalate_singleton]
      | cons u l =>
          rw [String.intercalate_cons_cons]
          simp only [String.length_append]
          rcases List.mem_cons.mp h with rfl | h
          · omega
          · have := ih h
            omega

/-- The text of a list is longer than that of an item. -/
theorem item_ne_str {l : List Scalar} {item : Scalar} (h : item ∈ l) :
    item.str ≠ (Val.items l).str := by
  intro heq
  have hlen := congrArg String.length heq
  have hrepr := item.str_length_le
  have hin := @length_le_intercalate ", " _ _ (List.mem_map_of_mem (f := Scalar.repr) h)
  simp only [Val.str, String.length_append] at hlen
  have hone : "[".length = 1 := rfl
  omega

/-! ## What each reader makes of a value -/

/-- The text of a value, where none and the empty one count as nothing. -/
def Val.read (v : Val) : Option String :=
  (if v = .nothing then none else some v.str).filter (fun s => s ≠ "")

theorem Val.read_of_ne {v : Val} (hn : v ≠ .nothing) (he : v.str ≠ "") : v.read = some v.str := by
  simp [Val.read, hn, he, Option.filter]

theorem Val.str_ne_empty {v : Val} (h : v.silent = false) : v.str ≠ "" := by
  cases v with
  | items l =>
      intro heq
      have hlen := congrArg String.length heq
      simp only [Val.str, String.length_append] at hlen
      have hone : "[".length = 1 := rfl
      have hzero : "".length = 0 := rfl
      omega
  | scalar value =>
      cases value with
      | text s => simpa [Val.silent, Val.str, Scalar.str] using h
      | nothing => cases h
      | flag b => exact ne_empty_of_not_blank (Scalar.not_blank (fun s => by simp))
      | number n => exact ne_empty_of_not_blank (Scalar.not_blank (fun s => by simp))
      | decimal d => exact ne_empty_of_not_blank (Scalar.not_blank (fun s => by simp))

theorem Val.read_eq_none_iff {v : Val} : v.read = none ↔ v.silent = true := by
  constructor
  · intro h
    by_contra hs
    have hs' : v.silent = false := by simpa using hs
    have hn : v ≠ .nothing := by
      rintro rfl
      cases hs'
    rw [Val.read_of_ne hn (Val.str_ne_empty hs')] at h
    cases h
  · intro h
    cases v with
    | items l => cases h
    | scalar value =>
        cases value with
        | nothing => rfl
        | text s =>
            have hs : s = "" := by simpa [Val.silent] using h
            rw [hs]
            rfl
        | flag b => cases h
        | number n => cases h
        | decimal d => cases h

theorem Val.read_eq_some_iff {v : Val} {s : String} (hs : s ≠ "") :
    v.read = some s ↔ v ≠ .nothing ∧ v.str = s := by
  constructor
  · intro h
    have hsilent : v.silent = false := by
      by_contra hc
      rw [Val.read_eq_none_iff.mpr (by simpa using hc)] at h
      cases h
    have hn : v ≠ .nothing := by
      rintro rfl
      cases hsilent
    rw [Val.read_of_ne hn (Val.str_ne_empty hsilent), Option.some.injEq] at h
    exact ⟨hn, h⟩
  · rintro ⟨hn, rfl⟩
    exact Val.read_of_ne hn hs

theorem Val.silent_of_truthy {v : Val} (h : v.truthy = true) : v.silent = false := by
  cases v with
  | items l => rfl
  | scalar value =>
      cases value with
      | nothing => cases h
      | text s => simpa [Val.silent, Val.truthy, Scalar.truthy] using h
      | flag b => rfl
      | number n => rfl
      | decimal d => rfl

theorem Val.read_of_truthy {v : Val} (h : v.truthy = true) : v.read = some v.str := by
  have hs := Val.silent_of_truthy h
  refine Val.read_of_ne ?_ (Val.str_ne_empty hs)
  rintro rfl
  cases hs

/-- The first item of a list that spells something. -/
theorem Val.word_items (l : List Scalar) :
    (Val.items l).word =
      match l.find? (fun item => !blank item.str) with
      | none => none
      | some .nothing => none
      | some item => some item.str := by
  have hfirst : (Val.items l).firstItem =
      .scalar ((l.find? (fun item => !blank item.str)).getD .nothing) := rfl
  unfold Val.word
  rw [hfirst]
  cases h : l.find? (fun item => !blank item.str) with
  | none => rfl
  | some item =>
      have hb : blank item.str = false := by simpa using List.find?_some h
      cases item with
      | nothing => rfl
      | text s => exact if_neg (Bool.eq_false_iff.mp hb)
      | flag b => exact if_neg (Bool.eq_false_iff.mp hb)
      | number n => exact if_neg (Bool.eq_false_iff.mp hb)
      | decimal d => exact if_neg (Bool.eq_false_iff.mp hb)

theorem Val.word_scalar {value : Scalar} (h : value ≠ .nothing) :
    (Val.scalar value).word = if blank value.str then none else some value.str := by
  cases value with
  | nothing => exact absurd rfl h
  | _ => rfl

theorem Val.word_not_blank {v : Val} {s : String} (h : v.word = some s) : blank s = false := by
  unfold Val.word at h
  split at h
  · cases h
  · split_ifs at h with hb
    cases h
    simpa using hb

/-- **The two readers of a text agree on single values**: a list is either taken apart or
printed, and its print is no item of it. -/
theorem Val.read_eq_word_iff (v : Val) : v.read = v.word ↔ v.single = true := by
  cases v with
  | items l =>
      refine ⟨fun h => ?_, fun h => by cases h⟩
      rw [Val.read_of_ne (by simp) (Val.str_ne_empty (v := .items l) rfl), Val.word_items] at h
      cases hf : l.find? (fun item => !blank item.str) with
      | none => rw [hf] at h; cases h
      | some item =>
          have hmem := List.mem_of_find?_eq_some hf
          cases item with
          | nothing => rw [hf] at h; cases h
          | _ =>
              rw [hf] at h
              simp only [Option.some.injEq] at h
              exact absurd h.symm (item_ne_str hmem)
  | scalar value =>
      cases value with
      | nothing => exact ⟨fun _ => rfl, fun _ => rfl⟩
      | text s =>
          rw [Val.word_scalar (by simp)]
          simp only [Val.single, Bool.or_eq_true, decide_eq_true_eq, Bool.not_eq_true']
          by_cases hs : s = ""
          · refine ⟨fun _ => Or.inl hs, fun _ => ?_⟩
            subst hs
            decide
          · rw [Val.read_of_ne (v := .text s) (by simp) hs]
            by_cases hb : blank s = true
            · simp [Val.str, Scalar.str, hs, hb]
            · simp [Val.str, Scalar.str, hs, hb]
      | flag b =>
          rw [Val.word_scalar (by simp), Scalar.not_blank (fun s => by simp)]
          exact ⟨fun _ => rfl, fun _ => Val.read_of_ne (by simp) (Val.str_ne_empty rfl)⟩
      | number n =>
          rw [Val.word_scalar (by simp), Scalar.not_blank (fun s => by simp)]
          exact ⟨fun _ => rfl, fun _ => Val.read_of_ne (by simp) (Val.str_ne_empty rfl)⟩
      | decimal d =>
          rw [Val.word_scalar (by simp), Scalar.not_blank (fun s => by simp)]
          exact ⟨fun _ => rfl, fun _ => Val.read_of_ne (by simp) (Val.str_ne_empty rfl)⟩

/-! ## The values the readers choose -/

namespace NativeRecord

/-- The value `extract_order_id` reads. -/
def chosen (r : NativeRecord) : Val :=
  match r.lead with
  | none => r.fallback
  | some v => if v = .nothing then r.fallback else v

theorem extract_eq (r : NativeRecord) : extractOrderId (.record r) = r.chosen.word := by
  have hpick : (match r.lead.getD .nothing with
      | .nothing => r.fallback
      | v => v) = r.chosen := by
    unfold chosen
    cases r.lead with
    | none => rfl
    | some v =>
        cases v with
        | items l => rfl
        | scalar value => cases value <;> rfl
  exact congrArg Val.word hpick

theorem anyId_eq (r : NativeRecord) : r.anyId = r.truthyId.getD r.fallback := by
  have hnothing : ¬ Val.nothing.truthy = true := by decide
  unfold anyId truthyId
  cases r.orderId with
  | none =>
      cases r.order_id with
      | none =>
          cases r.id with
          | none => rfl
          | some c =>
              by_cases hc : c.truthy = true
              · simp [hnothing, hc]
              · simp [hnothing, hc, fallback]
      | some b =>
          by_cases hb : b.truthy = true
          · simp [hnothing, hb]
          · cases r.id with
            | none => simp [hnothing, hb, fallback]
            | some c =>
                by_cases hc : c.truthy = true
                · simp [hnothing, hb, hc]
                · simp [hnothing, hb, hc, fallback]
  | some a =>
      by_cases ha : a.truthy = true
      · simp [ha]
      · cases r.order_id with
        | none =>
            cases r.id with
            | none => simp [hnothing, ha, fallback]
            | some c =>
                by_cases hc : c.truthy = true
                · simp [hnothing, ha, hc]
                · simp [hnothing, ha, hc, fallback]
        | some b =>
            by_cases hb : b.truthy = true
            · simp [ha, hb]
            · cases r.id with
              | none => simp [hnothing, ha, hb, fallback]
              | some c =>
                  by_cases hc : c.truthy = true
                  · simp [ha, hb, hc]
                  · simp [ha, hb, hc, fallback]

/-- Without one of the three keys there is no true value under them. -/
theorem truthyId_of_no_lead {r : NativeRecord} (h : r.lead = none) : r.truthyId = none := by
  unfold lead at h
  cases ha : r.orderId with
  | some a => simp [ha] at h
  | none =>
      cases hb : r.order_id with
      | some b => simp [ha, hb] at h
      | none =>
          cases hc : r.id with
          | some c => simp [ha, hb, hc] at h
          | none => simp [truthyId, ha, hb, hc]

/-- A true leading value is the first true value. -/
theorem truthyId_of_lead {r : NativeRecord} {v : Val} (h : r.lead = some v)
    (hv : v.truthy = true) : r.truthyId = some v := by
  unfold lead at h
  cases ha : r.orderId with
  | some a =>
      have hav : a = v := by simpa [ha] using h
      simp [truthyId, ha, hav, hv]
  | none =>
      cases hb : r.order_id with
      | some b =>
          have hbv : b = v := by simpa [ha, hb] using h
          simp [truthyId, ha, hb, hbv, hv]
      | none =>
          have hc : r.id = some v := by simpa [ha, hb] using h
          simp [truthyId, ha, hb, hc, hv]

end NativeRecord

theorem lifecycleId_record (r : NativeRecord) :
    lifecycleId (.record r) = (r.truthyId.getD r.fallback).read := by
  rw [← r.anyId_eq]
  rfl

/-- **The lifecycle reads what `extract_order_id` reads exactly when `lifecycleMeets`.** -/
theorem lifecycleId_eq_extract_iff (r : NativeRecord) :
    lifecycleId (.record r) = extractOrderId (.record r) ↔ r.lifecycleMeets = true := by
  rw [lifecycleId_record, r.extract_eq]
  unfold NativeRecord.lifecycleMeets NativeRecord.chosen
  cases hl : r.lead with
  | none =>
      simp only [NativeRecord.truthyId_of_no_lead hl, Option.getD_none]
      exact Val.read_eq_word_iff r.fallback
  | some v =>
      simp only
      by_cases hv : v.truthy = true
      · rw [if_pos hv, NativeRecord.truthyId_of_lead hl hv, Option.getD_some]
        have hn : v ≠ .nothing := by
          rintro rfl
          cases hv
        rw [if_neg hn]
        exact Val.read_eq_word_iff v
      · rw [if_neg hv]
        by_cases hn : v = .nothing
        · subst hn
          simp only [if_true]
          cases ht : r.truthyId with
          | none => exact Val.read_eq_word_iff r.fallback
          | some y =>
              have hy : y.truthy = true := by
                unfold NativeRecord.truthyId at ht
                exact List.find?_some ht
              simp only [Option.getD_some, decide_eq_true_eq]
              rw [Val.read_of_truthy hy]
              exact eq_comm
        · rw [if_neg hn, if_neg hn]
          cases hw : v.word with
          | none => exact Val.read_eq_none_iff
          | some s =>
              have hs := ne_empty_of_not_blank (Val.word_not_blank hw)
              simp only [Bool.and_eq_true, decide_eq_true_eq]
              exact Val.read_eq_some_iff hs

/-! ## The instrument -/

/-- What `_order_id_from_payload` makes of a value. -/
def Val.payloadText (v : Val) : Option String :=
  match v.firstItem with
  | .nothing => none
  | w => some w.str

/-- A value that spells something is accepted with it. -/
theorem Val.word_eq_some_iff {v : Val} {s : String} :
    v.word = some s ↔ v.anyText = true ∧ v.payloadText = some s ∧ blank s = false := by
  cases v with
  | items l =>
      have hfirst : (Val.items l).firstItem =
          .scalar ((l.find? (fun item => !blank item.str)).getD .nothing) := rfl
      have hany : (Val.items l).anyText = (l.find? (fun item => !blank item.str)).isSome := by
        rw [List.isSome_find?]
        rfl
      rw [Val.word_items, hany]
      unfold Val.payloadText
      rw [hfirst]
      cases h : l.find? (fun item => !blank item.str) with
      | none => simp
      | some item =>
          have hb : blank item.str = false := by simpa using List.find?_some h
          cases item with
          | nothing => simp
          | _ =>
              simp only [Option.getD_some, Option.isSome_some, true_and, Option.some.injEq]
              exact ⟨fun h => ⟨h, h ▸ hb⟩, fun h => h.1⟩
  | scalar value =>
      cases value with
      | nothing => exact ⟨fun h => (by cases h), fun h => (by cases h.1)⟩
      | _ =>
          rw [Val.word_scalar (by simp)]
          simp only [Val.anyText, Val.payloadText, Val.firstItem, Val.str, Bool.not_eq_true']
          split_ifs with hb
          · simp [hb]
          · have hb' := Bool.eq_false_iff.mpr hb
            simp only [Option.some.injEq, hb', true_and]
            exact ⟨fun h => ⟨h, h ▸ hb'⟩, fun h => h.1⟩

/-- A value that is no list, or an empty one, is accepted exactly when it spells something. -/
theorem Val.anyText_eq {v : Val} (h : v.single = true ∨ v = .items []) :
    v.anyText = v.word.isSome := by
  cases v with
  | items l =>
      rcases h with h | h
      · cases h
      · cases h
        rfl
  | scalar value =>
      cases value with
      | nothing => rfl
      | _ =>
          rw [Val.word_scalar (by simp)]
          simp only [Val.anyText]
          split_ifs with hb
          · simp [hb]
          · simp [hb]

/-- The instrument reads `w` from the value `z` it chose. -/
def Reads (z : Val) (w : Option String) : Prop :=
  z.anyText = w.isSome ∧ (z.anyText = true → z.payloadText = w)

theorem reads_none_iff {z : Val} : Reads z none ↔ z.anyText = false := by
  unfold Reads
  constructor
  · exact fun h => h.1
  · intro h
    exact ⟨h, fun h' => by rw [h] at h'; cases h'⟩

theorem reads_some_iff {z : Val} {s : String} (hs : blank s = false) :
    Reads z (some s) ↔ z.word = some s := by
  rw [Val.word_eq_some_iff]
  unfold Reads
  constructor
  · rintro ⟨hany, htext⟩
    exact ⟨hany, htext hany, hs⟩
  · rintro ⟨hany, htext, -⟩
    exact ⟨hany, fun _ => htext⟩

theorem reads_self {z : Val} (h : z.single = true ∨ z = .items []) : Reads z z.word := by
  cases hw : z.word with
  | none =>
      rw [reads_none_iff, Val.anyText_eq h, hw]
      rfl
  | some s => exact (reads_some_iff (Val.word_not_blank hw)).mpr hw

/-- What stays of a leading value under `lifecycleMeets`: it is null, single, or empty. -/
theorem NativeRecord.lead_cases {r : NativeRecord} (h : r.lifecycleMeets = true) {v : Val}
    (hl : r.lead = some v) (hn : v ≠ .nothing) : v.single = true ∨ v = .items [] := by
  unfold NativeRecord.lifecycleMeets at h
  simp only [hl] at h
  by_cases hv : v.truthy = true
  · rw [if_pos hv] at h
    exact Or.inl h
  · cases v with
    | items l =>
        refine Or.inr ?_
        have hempty : l = [] := by simpa [Val.truthy] using hv
        rw [hempty]
    | scalar value =>
        cases value with
        | text s =>
            refine Or.inl ?_
            have hs : s = "" := by simpa [Val.truthy, Scalar.truthy] using hv
            rw [hs]
            rfl
        | _ => exact Or.inl rfl

/-- **Under `lifecycleMeets`, the instrument agrees exactly when `instrumentMeets`.** -/
theorem reads_nativeId_iff {r : NativeRecord} (h : r.lifecycleMeets = true) :
    Reads r.nativeId r.chosen.word ↔ r.instrumentMeets = true := by
  unfold NativeRecord.instrumentMeets
  -- the instrument prefers `orderId`, then `id`, then `txid`; it does not read `order_id`
  cases ha : r.orderId with
  | some v =>
      have hlead : r.lead = some v := by simp [NativeRecord.lead, ha]
      have hz : r.nativeId = v := by simp [NativeRecord.nativeId, ha]
      rw [hz]
      by_cases hn : v = .nothing
      · subst hn
        have hx : r.chosen = r.fallback := by simp [NativeRecord.chosen, hlead]
        rw [hx]
        simp only [ne_eq, not_true_eq_false, decide_false, Bool.false_or, decide_eq_true_eq]
        constructor
        · intro hr
          exact Option.isSome_eq_false_iff.mp hr.1.symm |> Option.isNone_iff_eq_none.mp
        · intro hw
          rw [hw]
          exact reads_none_iff.mpr rfl
      · have hx : r.chosen = v := by simp [NativeRecord.chosen, hlead, hn]
        rw [hx]
        simp only [ne_eq, hn, not_false_eq_true, decide_true, Bool.true_or, iff_true]
        exact reads_self (NativeRecord.lead_cases h hlead hn)
  | none =>
      cases hb : r.order_id with
      | none =>
          cases hc : r.id with
          | none =>
              have hlead : r.lead = none := by simp [NativeRecord.lead, ha, hb, hc]
              have hz : r.nativeId = r.fallback := by
                simp [NativeRecord.nativeId, NativeRecord.fallback, ha, hc]
              have hx : r.chosen = r.fallback := by simp [NativeRecord.chosen, hlead]
              have hsingle : r.fallback.single = true := by
                simpa [NativeRecord.lifecycleMeets, hlead] using h
              rw [hz, hx]
              simp only [ne_eq, reduceCtorEq, not_false_eq_true, decide_true, Bool.true_or,
                iff_true]
              exact reads_self (Or.inl hsingle)
          | some v =>
              have hlead : r.lead = some v := by simp [NativeRecord.lead, ha, hb, hc]
              have hz : r.nativeId = v := by simp [NativeRecord.nativeId, ha, hc]
              rw [hz]
              by_cases hn : v = .nothing
              · subst hn
                have hx : r.chosen = r.fallback := by simp [NativeRecord.chosen, hlead]
                rw [hx]
                simp only [ne_eq, not_true_eq_false, decide_false, Bool.false_or,
                  decide_eq_true_eq]
                constructor
                · intro hr
                  exact Option.isSome_eq_false_iff.mp hr.1.symm |> Option.isNone_iff_eq_none.mp
                · intro hw
                  rw [hw]
                  exact reads_none_iff.mpr rfl
              · have hx : r.chosen = v := by simp [NativeRecord.chosen, hlead, hn]
                rw [hx]
                simp only [ne_eq, Option.some.injEq, hn, not_false_eq_true, decide_true,
                  Bool.true_or, iff_true]
                exact reads_self (NativeRecord.lead_cases h hlead hn)
      | some v =>
          have hlead : r.lead = some v := by simp [NativeRecord.lead, ha, hb]
          have hz : r.nativeId = (r.id <|> r.txid).getD .nothing := by
            simp [NativeRecord.nativeId, ha]
          have hx : r.chosen = (if v = .nothing then r.fallback else v) := by
            simp [NativeRecord.chosen, hlead]
          rw [hz, hx]
          simp only
          cases hw : (if v = .nothing then r.fallback else v).word with
          | none => rw [reads_none_iff, Bool.not_eq_true']
          | some s => rw [reads_some_iff (Val.word_not_blank hw), decide_eq_true_eq]

/-! ## The main result -/

/-- Inside `submit` the lifecycle's reading overrides the captured one when it has one. -/
theorem submitted_id {native : Native} {p : Pending Unit} (hp : p.orderId = none)
    (h : lifecycleId native = extractOrderId native) :
    (p.submitted (captureSubmission (.ok (.native native)))).orderId.filter (fun s => s ≠ "") =
      extractOrderId native := by
  cases he : extractOrderId native with
  | none => simp [Pending.submitted, captureSubmission, he, hp]
  | some s =>
      have hfields : (orderFields native).orderId.filter (fun s => s ≠ "") = some s :=
        h.trans he
      obtain ⟨hid, hs⟩ := Option.filter_eq_some_iff.mp hfields
      have hne : native ≠ .missing := by
        rintro rfl
        cases he
      simp [Pending.submitted, captureSubmission, he, outcomeFields, hne, OrderFields.update,
        Pending.update, hid]
      simpa using hs

theorem instrument_iff (r : NativeRecord) (hr : r.rejected = false) :
    (acceptedOrderPayload (.record r) = (extractOrderId (.record r)).isSome ∧
      (acceptedOrderPayload (.record r) = true →
        orderIdFromPayload (.record r) = extractOrderId (.record r))) ↔
      Reads r.nativeId r.chosen.word := by
  have hacc : acceptedOrderPayload (.record r) = r.nativeId.anyText := by
    simp [acceptedOrderPayload, hr]
  rw [hacc, r.extract_eq]
  rfl

/-- The bare responses the lifecycle and `extract_order_id` read alike. -/
theorem value_iff (v : Val) :
    lifecycleId (.value v) = extractOrderId (.value v) ↔ (Native.value v).uniform = true := by
  cases v with
  | items l =>
      have hlife : lifecycleId (.value (.items l)) = none := rfl
      have hextract : extractOrderId (.value (.items l)) = (Val.items l).word := rfl
      rw [hlife, hextract]
      simp only [Native.uniform, decide_eq_true_eq]
      exact eq_comm
  | scalar value =>
      cases value with
      | nothing => exact ⟨fun _ => rfl, fun _ => rfl⟩
      | flag b => exact ⟨fun _ => rfl, fun _ => rfl⟩
      | number n =>
          refine ⟨fun _ => rfl, fun _ => ?_⟩
          have hb : blank n.repr = false := blank_number n
          have hne := ne_empty_of_not_blank hb
          have hextract : extractOrderId (.value (.number n)) = (Val.number n).word := rfl
          rw [hextract, Val.word_scalar (by simp)]
          simp [lifecycleId, orderFields, Scalar.str, hb, Option.filter, hne]
      | decimal d =>
          refine ⟨fun h => ?_, fun h => by cases h⟩
          have hlife : lifecycleId (.value (.scalar (.decimal d))) = none := rfl
          have hextract : extractOrderId (.value (.scalar (.decimal d))) =
              (Val.scalar (.decimal d)).word := rfl
          rw [hlife, hextract, Val.word_scalar (by simp),
            @Scalar.not_blank (.decimal d) (fun s => by simp)] at h
          cases h
      | text s =>
          refine ⟨fun _ => rfl, fun _ => ?_⟩
          have hextract : extractOrderId (.value (.text s)) = (Val.text s).word := rfl
          rw [hextract, Val.word_scalar (by simp)]
          by_cases hb : blank s = true
          · simp [lifecycleId, orderFields, Scalar.str, hb]
          · have hb' := Bool.eq_false_iff.mpr hb
            have hne := ne_empty_of_not_blank hb'
            simp [lifecycleId, orderFields, Scalar.str, hb', Option.filter, hne]

/-- A true and single value under `orderId` is enough, whatever else the response has. -/
theorem uniform_of_orderId {r : NativeRecord} {v : Val} (h : r.orderId = some v)
    (htrue : v.truthy = true) (hsingle : v.single = true) :
    (Native.record r).uniform = true := by
  have hlead : r.lead = some v := by simp [NativeRecord.lead, h]
  have hn : v ≠ .nothing := by
    rintro rfl
    cases htrue
  simp [Native.uniform, NativeRecord.lifecycleMeets, NativeRecord.instrumentMeets, hlead, h,
    htrue, hsingle, hn]

/-- The answer of a venue that lists the transactions of an order. -/
def listedOrder : Native := .record { txid := some (.items [.text "OABC-1"]) }

end TradingFleet.Lifecycle
