import Mathlib.Tactic.NormNum
import TradingFleet.Regime.Evidence

set_option autoImplicit false

/-! # Resolving a horizon

With age limits that are valid and sources that can be asked for, a resolution is always built,
it selects the first usable source in the configured order, and collecting alternates changes
nothing about its decision (`resolve_selects_first`). The loop carries one invariant: what is
chosen so far is the first usable item of the evidence so far.
-/

namespace TradingFleet.Regime

/-! ## The constructor -/

theorem make_none {decision : Decision} (h : decision.fresh = false) (evidence : List Evidence) :
    ∃ res, Resolution.make decision evidence none = .ok res ∧ res.decision = decision ∧
      res.evidence = evidence ∧ res.selectedIndex = none := by
  unfold Resolution.make
  rw [dif_pos h]
  exact ⟨_, rfl, rfl, rfl, rfl⟩

theorem make_some {evidence : List Evidence} {i : Nat} {e : Evidence} (he : evidence[i]? = some e)
    (husable : e.usable = true) :
    ∃ res, Resolution.make e.decision evidence (some i) = .ok res ∧ res.decision = e.decision ∧
      res.evidence = evidence ∧ res.selectedIndex = some i := by
  unfold Resolution.make
  dsimp only
  split
  · rename_i hnone
    rw [he] at hnone
    cases hnone
  · rename_i e' he'
    rw [he, Option.some.injEq] at he'
    subst he'
    rw [dif_pos husable, dif_pos rfl]
    exact ⟨_, rfl, rfl, rfl, rfl⟩

theorem findIdx?_spec {evidence : List Evidence} {i : Nat}
    (h : evidence.findIdx? Evidence.usable = some i) :
    ∃ e, evidence[i]? = some e ∧ e.usable = true := by
  obtain ⟨hlt, husable, -⟩ := List.findIdx?_eq_some_iff_getElem.mp h
  exact ⟨evidence[i], List.getElem?_eq_getElem hlt, husable⟩

theorem findIdx?_snoc_some {evidence : List Evidence} {i : Nat} (item : Evidence)
    (h : evidence.findIdx? Evidence.usable = some i) :
    (evidence ++ [item]).findIdx? Evidence.usable = some i := by
  rw [List.findIdx?_append, h]
  rfl

theorem findIdx?_snoc_usable {evidence : List Evidence} {item : Evidence}
    (h : evidence.findIdx? Evidence.usable = none) (husable : item.usable = true) :
    (evidence ++ [item]).findIdx? Evidence.usable = some evidence.length := by
  rw [List.findIdx?_append, h, List.findIdx?_singleton, husable]
  simp

theorem findIdx?_snoc_none {evidence : List Evidence} {item : Evidence}
    (h : evidence.findIdx? Evidence.usable = none) (husable : item.usable = false) :
    (evidence ++ [item]).findIdx? Evidence.usable = none := by
  rw [List.findIdx?_append, h, List.findIdx?_singleton, husable]
  simp

namespace ResolveRequest

/-! ## What is asked of a request -/

/-- Every age limit that is looked up is positive. -/
structure ValidAges (r : ResolveRequest) : Prop where
  snapshot : ∀ l, r.snapshotMaxAge.resolve r.horizon none = some l → 0 < l
  ohlc : ∀ i l, r.ohlcMaxAge.resolve r.horizon (some i) = some l → 0 < l

/-- An interval and a window that are asked for are not negative. -/
structure ValidWindow (r : ResolveRequest) : Prop where
  interval : ∀ i, r.intervalMin = some i → 0 ≤ i
  window : ∀ w, r.windowSeconds = some w → 0 ≤ w

/-- The sources in the order in which they are considered. -/
def order (r : ResolveRequest) : List String :=
  match r.snapshot with
  | none => r.configured.map (fun s => sourceName s.1)
  | some _ =>
      r.snapshotSource :: if r.allowFallback then r.configured.map (fun s => sourceName s.1) else []

theorem sources_pos (h : Horizon) : ∀ s ∈ h.sources, 0 < s.1 ∧ 0 < s.2 := by
  cases h with
  | short => decide +kernel
  | long => decide +kernel

theorem primary_pos {r : ResolveRequest} (h : r.ValidWindow) :
    0 < r.primary.1 ∧ 0 < r.primary.2 := by
  have hfirst : 0 < (r.horizon.sources.headD (1, 900)).1 ∧
      0 < (r.horizon.sources.headD (1, 900)).2 := by
    cases r.horizon with
    | short => decide +kernel
    | long => decide +kernel
  unfold primary
  constructor
  · dsimp only
    split
    · exact hfirst.1
    · rename_i hne
      cases hi : r.intervalMin with
      | none => exact absurd (by rw [hi]; rfl) hne
      | some i =>
          rw [hi] at hne
          exact lt_of_le_of_ne (h.interval i hi) (Ne.symm hne)
  · dsimp only
    split
    · exact hfirst.2
    · rename_i hne
      cases hi : r.windowSeconds with
      | none => exact absurd (by rw [hi]; rfl) hne
      | some i =>
          rw [hi] at hne
          exact lt_of_le_of_ne (h.window i hi) (Ne.symm hne)

theorem configured_pos {r : ResolveRequest} (h : r.ValidWindow) :
    ∀ s ∈ r.configured, 0 < s.1 ∧ 0 < s.2 := by
  intro s hs
  have hall : s ∈ (if r.intervalMin.isSome || r.windowSeconds.isSome then
      r.primary :: r.horizon.sources.filter (fun s => s ≠ r.primary) else r.horizon.sources) := by
    unfold configured at hs
    dsimp only at hs
    split at hs
    · exact hs
    · exact List.mem_of_mem_take hs
  split at hall
  · rcases List.mem_cons.mp hall with rfl | hmem
    · exact primary_pos h
    · exact sources_pos _ s (List.mem_filter.mp hmem).1
  · exact sources_pos _ s hall

/-- The request with alternates, or without. -/
def withAlternates (r : ResolveRequest) (b : Bool) : ResolveRequest := { r with includeAlternates := b }

theorem ValidAges.withAlternates {r : ResolveRequest} (h : r.ValidAges) (b : Bool) :
    (r.withAlternates b).ValidAges := ⟨h.snapshot, h.ohlc⟩

section Examining

variable {r : ResolveRequest}

theorem checkedAge_ok {limit : Option ℚ} (h : ∀ l, limit = some l → 0 < l) :
    checkedAge limit = .ok limit := by
  unfold checkedAge
  cases limit with
  | none => rfl
  | some l => exact if_pos (h l rfl)

theorem sourceEvidence_ok (h : r.ValidAges) (reading : SourceReading) (interval : Int)
    (fallbackUsed : Bool) :
    ∃ item, r.sourceEvidence reading interval fallbackUsed = .ok item ∧
      item.decision.source = sourceName interval := by
  unfold sourceEvidence
  rw [checkedAge_ok (h.ohlc interval)]
  exact ⟨_, rfl, rfl⟩

theorem snapshotEvidence_ok (h : r.ValidAges) (s : Snapshot) :
    ∃ item, r.snapshotEvidence s = .ok item ∧ item.decision.source = r.snapshotSource := by
  unfold snapshotEvidence
  rw [checkedAge_ok h.snapshot]
  exact ⟨_, rfl, rfl⟩

/-- A resolution that was built from this evidence and more, in the order of `names`. -/
structure Resolves (res : Resolution) (evidence : List Evidence) (names : List String) : Prop where
  first : res.selectedIndex = res.evidence.findIdx? Evidence.usable
  extends_ : ∃ more, res.evidence = evidence ++ more ∧
    more.map (fun e => e.decision.source) <+: names ∧
    (res.selectedIndex = none → more.map (fun e => e.decision.source) = names)

theorem Resolves.of_rest {res : Resolution} {evidence : List Evidence} {item : Evidence}
    {names : List String} (h : Resolves res (evidence ++ [item]) names) :
    Resolves res evidence (item.decision.source :: names) := by
  obtain ⟨more, hevidence, hprefix, hall⟩ := h.extends_
  refine ⟨h.first, item :: more, by rw [hevidence, List.append_assoc]; rfl, ?_, ?_⟩
  · rw [List.map_cons]
    exact List.cons_prefix_cons.mpr ⟨rfl, hprefix⟩
  · intro hnone
    rw [List.map_cons, hall hnone]

theorem failed_ok (evidence : List Evidence) :
    ∃ res, r.failed evidence = .ok res ∧ res.evidence = evidence ∧ res.selectedIndex = none := by
  unfold failed
  dsimp only
  generalize hd : r.annotate _ _ _ = d
  have hfresh : d.fresh = false := by
    rw [← hd]
    rfl
  obtain ⟨res, hres, -, hevidence, hindex⟩ := make_none hfresh evidence
  exact ⟨res, hres, hevidence, hindex⟩

theorem conclude_ok {evidence : List Evidence} {chosen : Option Nat}
    (hchosen : chosen = evidence.findIdx? Evidence.usable) :
    ∃ res, r.conclude evidence chosen = .ok res ∧ Resolves res evidence [] ∧
      ∀ i e, chosen = some i → evidence[i]? = some e → res.decision = e.decision := by
  cases hc : chosen with
  | none =>
      obtain ⟨res, hres, hevidence, hindex⟩ := failed_ok (r := r) evidence
      refine ⟨res, hres, ⟨?_, [], ?_, List.prefix_rfl, fun _ => rfl⟩, fun _ _ h => absurd h (by simp)⟩
      · rw [hindex, hevidence, ← hchosen, hc]
      · rw [hevidence, List.append_nil]
  | some i =>
      rw [hc] at hchosen
      obtain ⟨e, he, husable⟩ := findIdx?_spec hchosen.symm
      obtain ⟨res, hres, hdecision, hevidence, hindex⟩ := make_some he husable
      refine ⟨res, ?_, ⟨?_, [], ?_, List.prefix_rfl, fun _ => rfl⟩, ?_⟩
      · unfold conclude
        dsimp only
        rw [he]
        exact hres
      · rw [hindex, hevidence, hchosen]
      · rw [hevidence, List.append_nil]
      · rintro j e' hj he'
        rw [← Option.some.inj hj, he, Option.some.injEq] at he'
        rw [hdecision, he']

/-- One source, when there is nothing wrong with it. -/
theorem examine_cons (answers : Sources) {s : Int × ℚ} (rest : List (Int × ℚ)) (index : Nat)
    (evidence : List Evidence) (chosen : Option Nat) (hpos : 0 < s.1 ∧ 0 < s.2) {item : Evidence}
    (hitem : r.sourceEvidence (answers index s.1 s.2) s.1
      (chosen.isNone && (!evidence.isEmpty || index ≠ 0)) = .ok item) :
    r.examine answers (s :: rest) index evidence chosen =
      if chosen.isNone && item.usable then
        if !r.includeAlternates then
          Resolution.make item.decision (evidence ++ [item]) (some evidence.length)
        else r.examine answers rest (index + 1) (evidence ++ [item]) (some evidence.length)
      else r.examine answers rest (index + 1) (evidence ++ [item]) chosen := by
  obtain ⟨interval, window⟩ := s
  have hvalid : ¬ (interval ≤ 0 ∨ window ≤ 0) :=
    not_or.mpr ⟨not_le.mpr hpos.1, not_le.mpr hpos.2⟩
  have hlast : (evidence ++ [item]).length - 1 = evidence.length := by simp
  rw [examine, if_neg hvalid, hitem, ← hlast]
  rfl

/-- The loop, from evidence whose first usable item is the one chosen. -/
theorem examine_ok (hages : r.ValidAges) (answers : Sources) (sources : List (Int × ℚ)) (index : Nat)
    {evidence : List Evidence} {chosen : Option Nat}
    (hpos : ∀ s ∈ sources, 0 < s.1 ∧ 0 < s.2)
    (hchosen : chosen = evidence.findIdx? Evidence.usable) :
    ∃ res, r.examine answers sources index evidence chosen = .ok res ∧
      Resolves res evidence (sources.map (fun s => sourceName s.1)) ∧
      ∀ i e, chosen = some i → evidence[i]? = some e → res.decision = e.decision := by
  induction sources generalizing index evidence chosen with
  | nil => exact conclude_ok hchosen
  | cons s rest ih =>
      have hrest : ∀ s ∈ rest, 0 < s.1 ∧ 0 < s.2 := fun s hs => hpos s (List.mem_cons_of_mem _ hs)
      obtain ⟨item, hitem, hsource⟩ := sourceEvidence_ok hages (answers index s.1 s.2)
        s.1 (chosen.isNone && (!evidence.isEmpty || index ≠ 0))
      rw [examine_cons answers rest index evidence chosen (hpos s List.mem_cons_self) hitem,
        List.map_cons, ← hsource]
      cases hc : chosen with
      | some i =>
          rw [hc] at hchosen
          obtain ⟨res, hres, hresolves, hdecision⟩ := ih (index + 1) hrest
            (findIdx?_snoc_some item hchosen.symm).symm
          refine ⟨res, hres, hresolves.of_rest, ?_⟩
          intro j e hj he
          refine hdecision j e hj ?_
          rw [List.getElem?_append_left (List.getElem?_eq_some_iff.mp he).1, he]
      | none =>
          rw [hc] at hchosen
          cases husable : item.usable with
          | false =>
              obtain ⟨res, hres, hresolves, -⟩ := ih (index + 1) hrest
                (findIdx?_snoc_none hchosen.symm husable).symm
              exact ⟨res, hres, hresolves.of_rest, fun _ _ h => absurd h (by simp)⟩
          | true =>
              have hnow := findIdx?_snoc_usable hchosen.symm husable
              cases halternates : r.includeAlternates with
              | true =>
                  obtain ⟨res, hres, hresolves, -⟩ := ih (index + 1) hrest hnow.symm
                  exact ⟨res, hres, hresolves.of_rest, fun _ _ h => absurd h (by simp)⟩
              | false =>
                  have hget : (evidence ++ [item])[evidence.length]? = some item := by simp
                  obtain ⟨res, hres, -, hevidence, hindex⟩ := make_some hget husable
                  refine ⟨res, hres, ⟨?_, [item], hevidence, ?_, ?_⟩, fun _ _ h => absurd h (by simp)⟩
                  · rw [hindex, hevidence, hnow]
                  · exact List.cons_prefix_cons.mpr ⟨rfl, List.nil_prefix⟩
                  · intro hnone
                    rw [hindex] at hnone
                    cases hnone

/-- From evidence in which nothing is usable, alternates change nothing about the decision. -/
theorem examine_same (hages : r.ValidAges) (answers : Sources) (sources : List (Int × ℚ))
    (index : Nat) {evidence : List Evidence} (hpos : ∀ s ∈ sources, 0 < s.1 ∧ 0 < s.2)
    (hnone : evidence.findIdx? Evidence.usable = none) {res res' : Resolution}
    (h : (r.withAlternates true).examine answers sources index evidence none = .ok res)
    (h' : (r.withAlternates false).examine answers sources index evidence none = .ok res') :
    res.decision = res'.decision := by
  induction sources generalizing index evidence with
  | nil =>
      have hsame : Except.ok (ε := String) res = .ok res' := h.symm.trans h'
      rw [Except.ok.inj hsame]
  | cons s rest ih =>
      have hrest : ∀ s ∈ rest, 0 < s.1 ∧ 0 < s.2 := fun s hs => hpos s (List.mem_cons_of_mem _ hs)
      obtain ⟨item, hitem, -⟩ := sourceEvidence_ok hages (answers index s.1 s.2)
        s.1 ((none : Option Nat).isNone && (!evidence.isEmpty || index ≠ 0))
      have hcons : ∀ b, (r.withAlternates b).examine answers (s :: rest) index evidence none = _ :=
        fun b => examine_cons (r := r.withAlternates b) answers rest index evidence none
          (hpos s List.mem_cons_self) hitem
      rw [hcons] at h h'
      cases husable : item.usable with
      | false =>
          rw [husable] at h h'
          exact ih (index + 1) hrest (findIdx?_snoc_none hnone husable) h h'
      | true =>
          rw [husable] at h h'
          have hget : (evidence ++ [item])[evidence.length]? = some item := by simp
          obtain ⟨made, hmade, hdecision', -⟩ := make_some hget husable
          obtain ⟨found, hfound, -, hdecision⟩ := examine_ok (hages.withAlternates true) answers rest
            (index + 1)
            hrest (findIdx?_snoc_usable hnone husable).symm
          have hres : found = res := Except.ok.inj (hfound.symm.trans h)
          have hres' : made = res' := Except.ok.inj (hmade.symm.trans h')
          rw [← hres, ← hres', hdecision', hdecision _ _ rfl hget]

end Examining

/-! ## The main result -/

section Resolving

variable {r : ResolveRequest} (hnow : 0 < r.now) (hages : r.ValidAges) (hwindow : r.ValidWindow)

/-- What a resolution says about the sources. -/
structure FirstUsable (r : ResolveRequest) (res : Resolution) : Prop where
  first : res.selectedIndex = res.evidence.findIdx? Evidence.usable
  ordered : res.evidence.map (fun e => e.decision.source) <+: r.order
  exhausted : res.selectedIndex = none → res.evidence.map (fun e => e.decision.source) = r.order

theorem Resolves.firstUsable {res : Resolution} {evidence : List Evidence} {names : List String}
    (h : Resolves res evidence names)
    (horder : evidence.map (fun e => e.decision.source) ++ names = r.order) :
    FirstUsable r res := by
  obtain ⟨more, hevidence, hprefix, hall⟩ := h.extends_
  refine ⟨h.first, ?_, fun hnone => ?_⟩
  · rw [hevidence, List.map_append, ← horder]
    exact (List.prefix_append_right_inj _).mpr hprefix
  · rw [hevidence, List.map_append, hall hnone, horder]

theorem unusableSnapshot_ok {item : Evidence} (husable : item.usable = false) :
    ∃ res, r.unusableSnapshot item = .ok res ∧ Resolves res [item] [] := by
  have hfresh : (if item.decision.fresh then
      r.annotate (.unavailable item.availabilityReason) item.decision.source
      else item.decision).fresh = false := by
    cases hf : item.decision.fresh with
    | true => rfl
    | false => simpa using hf
  obtain ⟨res, hres, -, hevidence, hindex⟩ := make_none hfresh [item]
  refine ⟨res, hres, ⟨?_, [], hevidence, List.prefix_rfl, fun _ => rfl⟩⟩
  rw [hindex, hevidence, List.findIdx?_singleton, husable]
  rfl

include hnow hages hwindow

omit hages hwindow in
theorem resolve_without (answers : Sources) (hs : r.snapshot = none) :
    r.resolve answers = r.examine answers r.configured 0 [] none := by
  unfold resolve
  rw [if_neg (not_le.mpr hnow), hs]

omit hages hwindow in
theorem resolve_with (answers : Sources) {s : Snapshot} {item : Evidence} (hs : r.snapshot = some s)
    (hitem : r.snapshotEvidence s = .ok item) :
    r.resolve answers =
      if item.usable then
        if !r.includeAlternates || !r.allowFallback then
          Resolution.make item.decision [item] (some 0)
        else r.examine answers r.configured 0 [item] (some 0)
      else if !r.allowFallback then r.unusableSnapshot item
      else r.examine answers r.configured 0 [item] none := by
  unfold resolve
  rw [if_neg (not_le.mpr hnow), hs]
  show (r.snapshotEvidence s >>= _) = _
  rw [hitem]
  rfl

theorem resolve_ok (answers : Sources) :
    ∃ res, r.resolve answers = .ok res ∧ FirstUsable r res := by
  have hpos := configured_pos hwindow
  cases hs : r.snapshot with
  | none =>
      obtain ⟨res, hres, hresolves, -⟩ := examine_ok hages answers r.configured 0 hpos
        (show (none : Option Nat) = ([] : List Evidence).findIdx? Evidence.usable from rfl)
      rw [resolve_without hnow answers hs]
      exact ⟨res, hres, hresolves.firstUsable (by unfold order; rw [hs]; rfl)⟩
  | some s =>
      obtain ⟨item, hitem, hsource⟩ := snapshotEvidence_ok hages s
      -- the snapshot is asked first, then the sources as configured
      have horder : ∀ names, names = (if r.allowFallback then
          r.configured.map (fun s => sourceName s.1) else []) →
          [item].map (fun e => e.decision.source) ++ names = r.order := by
        rintro names rfl
        unfold order
        rw [hs, List.map_cons, hsource]
        rfl
      rw [resolve_with hnow answers hs hitem]
      cases husable : item.usable with
      | true =>
          have hfirst : [item].findIdx? Evidence.usable = some 0 := by
            rw [List.findIdx?_singleton, husable]
            rfl
          rw [if_pos rfl]
          by_cases halone : (!r.includeAlternates || !r.allowFallback) = true
          · obtain ⟨made, hmade, -, hevidence, hindex⟩ := make_some
              (show [item][0]? = some item from rfl) husable
            rw [if_pos halone]
            refine ⟨made, hmade, ⟨?_, ?_, fun hnone => ?_⟩⟩
            · rw [hindex, hevidence, hfirst]
            · rw [hevidence, ← horder _ rfl]
              exact List.prefix_append _ _
            · rw [hindex] at hnone
              cases hnone
          · obtain ⟨res, hres, hresolves, -⟩ := examine_ok hages answers r.configured 0 hpos
              hfirst.symm
            have hfallback : r.allowFallback = true := by
              cases hf : r.allowFallback with
              | true => rfl
              | false => exact absurd (by rw [hf]; simp) halone
            rw [if_neg halone]
            exact ⟨res, hres, hresolves.firstUsable (horder _ (by rw [hfallback]; rfl))⟩
      | false =>
          have hfirst : [item].findIdx? Evidence.usable = none := by
            rw [List.findIdx?_singleton, husable]
            rfl
          rw [if_neg Bool.false_ne_true]
          cases hfallback : r.allowFallback with
          | true =>
              obtain ⟨res, hres, hresolves, -⟩ := examine_ok hages answers r.configured 0 hpos
                hfirst.symm
              exact ⟨res, hres, hresolves.firstUsable (horder _ (by rw [hfallback]; rfl))⟩
          | false =>
              obtain ⟨res, hres, hresolves⟩ := unusableSnapshot_ok (r := r) husable
              exact ⟨res, hres, hresolves.firstUsable (horder _ (by rw [hfallback]; rfl))⟩

theorem resolve_same (answers : Sources) {res res' : Resolution}
    (h : (r.withAlternates true).resolve answers = .ok res)
    (h' : (r.withAlternates false).resolve answers = .ok res') : res.decision = res'.decision := by
  have hpos := configured_pos hwindow
  cases hs : r.snapshot with
  | none =>
      rw [resolve_without (r := r.withAlternates true) hnow answers hs] at h
      rw [resolve_without (r := r.withAlternates false) hnow answers hs] at h'
      exact examine_same hages answers r.configured 0 hpos rfl h h'
  | some s =>
      obtain ⟨item, hitem, -⟩ := snapshotEvidence_ok hages s
      rw [resolve_with (r := r.withAlternates true) hnow answers hs hitem] at h
      rw [resolve_with (r := r.withAlternates false) hnow answers hs hitem] at h'
      cases husable : item.usable with
      | true =>
          have hfirst : [item].findIdx? Evidence.usable = some 0 := by
            rw [List.findIdx?_singleton, husable]
            rfl
          obtain ⟨made, hmade, hmadeDecision, -⟩ := make_some
            (show [item][0]? = some item from rfl) husable
          rw [if_pos husable] at h h'
          rw [if_pos (show (!(r.withAlternates false).includeAlternates ||
            !(r.withAlternates false).allowFallback) = true from rfl)] at h'
          have hres' : made = res' := Except.ok.inj (hmade.symm.trans h')
          -- a usable snapshot decides, whether or not the others are read as well
          by_cases halone : (!(r.withAlternates true).includeAlternates ||
              !(r.withAlternates true).allowFallback) = true
          · rw [if_pos halone] at h
            have hres : made = res := Except.ok.inj (hmade.symm.trans h)
            rw [← hres, ← hres']
          · rw [if_neg halone] at h
            obtain ⟨found, hfound, -, hdecision⟩ := examine_ok (hages.withAlternates true) answers
              r.configured 0 hpos hfirst.symm
            have hres : found = res := Except.ok.inj (hfound.symm.trans h)
            rw [← hres, ← hres', hmadeDecision, hdecision 0 item rfl rfl]
      | false =>
          have hfirst : [item].findIdx? Evidence.usable = none := by
            rw [List.findIdx?_singleton, husable]
            rfl
          have hnot : ¬ item.usable = true := by
            rw [husable]
            exact Bool.false_ne_true
          rw [if_neg hnot] at h h'
          cases hfallback : r.allowFallback with
          | true =>
              have hgo : ∀ b, ¬ (!(r.withAlternates b).allowFallback) = true := by
                intro b
                show ¬ (!r.allowFallback) = true
                rw [hfallback]
                exact Bool.false_ne_true
              rw [if_neg (hgo _)] at h h'
              exact examine_same hages answers r.configured 0 hpos hfirst h h'
          | false =>
              -- without a fallback neither of the two reads further
              have hstop : ∀ b, (!(r.withAlternates b).allowFallback) = true := by
                intro b
                show (!r.allowFallback) = true
                rw [hfallback]
                rfl
              rw [if_pos (hstop _)] at h h'
              have hsame : Except.ok (ε := String) res = .ok res' := h.symm.trans h'
              rw [Except.ok.inj hsame]

/-- Alternates change nothing about the decision, and the first usable source is selected. -/
theorem resolve_selects_first (answers : Sources) :
    ∃ decision, ∀ alternates, ∃ res, (r.withAlternates alternates).resolve answers = .ok res ∧
      res.decision = decision ∧ FirstUsable r res := by
  have hboth : ∀ b, ∃ res, (r.withAlternates b).resolve answers = .ok res ∧ FirstUsable r res := by
    intro b
    obtain ⟨res, hres, hfirst⟩ := resolve_ok (r := r.withAlternates b) hnow
      (hages.withAlternates b) ⟨hwindow.interval, hwindow.window⟩ answers
    exact ⟨res, hres, hfirst.first, hfirst.ordered, hfirst.exhausted⟩
  obtain ⟨without, hwithout, -⟩ := hboth false
  refine ⟨without.decision, fun alternates => ?_⟩
  obtain ⟨res, hres, hfirst⟩ := hboth alternates
  refine ⟨res, hres, ?_, hfirst⟩
  cases alternates with
  | true => exact resolve_same hnow hages hwindow answers hres hwithout
  | false => rw [Except.ok.inj (hres.symm.trans hwithout)]

end Resolving

end ResolveRequest

end TradingFleet.Regime
