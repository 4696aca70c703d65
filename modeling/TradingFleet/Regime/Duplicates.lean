import TradingFleet.Regime.Contextual
import TradingFleet.Regime.Resolution

set_option autoImplicit false

/-! # Evidence that is appended again

Selection compares symbols in upper case and takes the first usable item, so an item whose
symbol and role are there already is never selected. The benchmarks, however, are enumerated by
the spelling of their symbols: a second spelling becomes a second benchmark, with the first
one's evidence, and takes its share of the weight. `evidence_counted_once_iff` says that this is
the only way in which such items change the result.
-/

namespace TradingFleet.Regime

open TradingFleet.Text

/-- The roles that are looked up; any other is only listed. -/
def readRole (role : String) : Bool := assetRole role || benchmarkRole role

/-- An item that votes in a role that is looked up has a usable price-trend item of its symbol,
up to case, and of its role before it. -/
def Repeats (items : List Evidence) (x : Evidence) : Prop :=
  x.directional = true → readRole x.role = true →
    ∃ y ∈ items, y.directional = true ∧ upper y.symbol = upper x.symbol ∧ y.role = x.role

instance (items : List Evidence) (x : Evidence) : Decidable (Repeats items x) :=
  inferInstanceAs (Decidable (_ → _ → _))

/-- Every benchmark that votes among the appended items is spelled as one that is there. -/
def SpelledAlike (items extra : List Evidence) (assetSymbol : Option String) : Prop :=
  ∀ x ∈ extra, x.directional = true → benchmarkRole x.role = true →
    upper x.symbol ≠ assetKey items assetSymbol →
    x.symbol ∈ benchmarkSymbols items (assetKey items assetSymbol)

section Appending

variable {items extra : List Evidence}

theorem find?_append_of_left {α : Type} {p : α → Bool} {l m : List α}
    (h : ∀ x ∈ m, p x = true → ∃ y ∈ l, p y = true) : (l ++ m).find? p = l.find? p := by
  rw [List.find?_append]
  cases hl : l.find? p with
  | some a => rfl
  | none =>
      have hm : m.find? p = none := by
        rw [List.find?_eq_none]
        intro x hx hp
        obtain ⟨y, hy, hpy⟩ := h x hx hp
        exact List.find?_eq_none.mp hl y hy hpy
      rw [hm]
      rfl

variable (h : ∀ x ∈ extra, Repeats items x)

include h

/-- Nothing that is appended is the first of its symbol and role. -/
theorem selected_append {role : String} (hread : readRole role = true) (key : String) :
    selected (items ++ extra) key role = selected items key role := by
  unfold selected
  rw [List.filter_append]
  refine find?_append_of_left (fun x hx hp => ?_)
  obtain ⟨hmem, hxvotes⟩ := List.mem_filter.mp hx
  have hxrole : x.role = role := by
    simp only [Bool.and_eq_true, decide_eq_true_eq] at hp
    exact hp.2
  have hxread : readRole x.role = true := by rw [hxrole, hread]
  obtain ⟨y, hy, hvotes, hsymbol, hrole⟩ := h x hmem hxvotes hxread
  refine ⟨y, List.mem_filter.mpr ⟨hy, hvotes⟩, ?_⟩
  rw [hsymbol, hrole]
  exact hp

theorem assetKey_append (assetSymbol : Option String) :
    assetKey (items ++ extra) assetSymbol = assetKey items assetSymbol := by
  cases assetSymbol with
  | some symbol => rfl
  | none =>
      unfold assetKey
      dsimp only
      rw [List.filter_append]
      rw [find?_append_of_left]
      intro x hx hp
      obtain ⟨hmem, hxvotes⟩ := List.mem_filter.mp hx
      have hxread : readRole x.role = true := by
        unfold readRole
        rw [hp, Bool.true_or]
      obtain ⟨y, hy, hvotes, -, hrole⟩ := h x hmem hxvotes hxread
      refine ⟨y, List.mem_filter.mpr ⟨hy, hvotes⟩, ?_⟩
      rw [hrole]
      exact hp

theorem benchmarkOf_append : benchmarkOf (items ++ extra) = benchmarkOf items := by
  funext symbol
  unfold benchmarkOf
  rw [selected_append h (by decide +kernel), selected_append h (by decide +kernel)]

omit h in
/-- The spellings of the benchmarks among the appended items. -/
theorem mem_spellings {key symbol : String} :
    symbol ∈ (((extra.filter Evidence.directional).filter
        (fun e => upper e.symbol ≠ key && benchmarkRole e.role)).map Evidence.symbol) ↔
      ∃ x ∈ extra, x.directional = true ∧ benchmarkRole x.role = true ∧ upper x.symbol ≠ key ∧
        x.symbol = symbol := by
  constructor
  · intro hmem
    obtain ⟨x, hx, rfl⟩ := List.mem_map.mp hmem
    obtain ⟨hx, hp⟩ := List.mem_filter.mp hx
    obtain ⟨hx, hvotes⟩ := List.mem_filter.mp hx
    rw [Bool.and_eq_true, decide_eq_true_eq] at hp
    exact ⟨x, hx, hvotes, hp.2, hp.1, rfl⟩
  · rintro ⟨x, hx, hvotes, hrole, hkey, rfl⟩
    refine List.mem_map_of_mem (List.mem_filter.mpr ⟨List.mem_filter.mpr ⟨hx, hvotes⟩, ?_⟩)
    rw [Bool.and_eq_true, decide_eq_true_eq]
    exact ⟨hkey, hrole⟩

omit h in
/-- The appended spellings come after those that are there. -/
theorem benchmarkSymbols_append (key : String) :
    ∃ more, benchmarkSymbols (items ++ extra) key = benchmarkSymbols items key ++ more ∧
      (more = [] ↔ ∀ x ∈ extra, x.directional = true → benchmarkRole x.role = true →
        upper x.symbol ≠ key → x.symbol ∈ benchmarkSymbols items key) := by
  refine ⟨_, by unfold benchmarkSymbols; rw [List.filter_append, List.filter_append,
    List.map_append, List.eraseDups_append], ?_⟩
  have hnil : ∀ l : List String, l.eraseDups = [] ↔ l = [] := by
    intro l
    constructor
    · intro hl
      refine List.eq_nil_iff_forall_not_mem.mpr (fun a ha => ?_)
      have := List.mem_eraseDups.mpr ha
      rw [hl] at this
      exact List.not_mem_nil this
    · rintro rfl
      rfl
  rw [hnil, List.eq_nil_iff_forall_not_mem]
  constructor
  · intro hnone x hx hvotes hrole hkey
    by_contra hnew
    refine hnone x.symbol ?_
    unfold List.removeAll
    rw [List.mem_filter]
    refine ⟨mem_spellings.mpr ⟨x, hx, hvotes, hrole, hkey, rfl⟩, ?_⟩
    have hnot := fun hmem => hnew (List.mem_eraseDups.mpr hmem)
    simpa using hnot
  · intro hall symbol hmem
    unfold List.removeAll at hmem
    rw [List.mem_filter] at hmem
    obtain ⟨x, hx, hvotes, hrole, hkey, rfl⟩ := mem_spellings.mp hmem.1
    have hold := List.mem_eraseDups.mp (hall x hx hvotes hrole hkey)
    have hnot := hmem.2
    simp only [Bool.not_eq_true', List.elem_eq_contains] at hnot
    rw [List.contains_eq_mem, decide_eq_false_iff_not] at hnot
    exact hnot hold

end Appending

/-! ## The components show every benchmark -/

theorem add_components (cap : ℚ) (t : Tally) (e : Entry) :
    (t.add cap e).components.length = t.components.length + 1 := by
  unfold Tally.add
  cases signedScore e.decision cap with
  | none => simp
  | some s => simp

theorem foldl_components (cap : ℚ) (entries : List Entry) (t : Tally) :
    (entries.foldl (Tally.add cap) t).components.length =
      t.components.length + entries.length := by
  induction entries generalizing t with
  | nil => rfl
  | cons e rest ih =>
      rw [List.foldl_cons, ih, add_components, List.length_cons]
      omega

theorem tallyOf_components (w : Weights) (cap : ℚ) (short long : Decision)
    (benchmarks : List Benchmark) :
    (tallyOf w cap short long benchmarks).components.length = 2 + 2 * benchmarks.length := by
  have hlength : ∀ (n : Nat) (l : List Benchmark),
      (l.flatMap (Benchmark.entries w n)).length = 2 * l.length := by
    intro n l
    induction l with
    | nil => rfl
    | cons b rest ih =>
        rw [List.flatMap_cons, List.length_append, ih, List.length_cons]
        show 2 + 2 * rest.length = _
        omega
  unfold tallyOf entriesOf
  rw [foldl_components, List.length_append, hlength]
  show 0 + (2 + _) = _
  omega

/-- Appended items that repeat what is there change the result exactly when the options are
accepted and a benchmark comes in a new spelling. -/
theorem composeEvidence_append_iff {items extra : List Evidence}
    (h : ∀ x ∈ extra, Repeats items x) (assetSymbol : Option String) (o : ComposeOptions) :
    composeEvidence (items ++ extra) assetSymbol o = composeEvidence items assetSymbol o ↔
      (∃ e, o.accepted = .error e) ∨ SpelledAlike items extra assetSymbol := by
  obtain ⟨more, hmore, hnil⟩ := @benchmarkSymbols_append items extra
    (assetKey items assetSymbol)
  unfold composeEvidence
  dsimp only
  rw [assetKey_append h, selected_append h (by decide +kernel),
    selected_append h (by decide +kernel), benchmarkOf_append h, hmore]
  cases hacc : o.accepted with
  | error e =>
      have hrejected : ∀ short long benchmarks,
          compose short long benchmarks o = .error e := by
        intro short long benchmarks
        unfold compose
        rw [hacc]
        rfl
      rw [hrejected, hrejected]
      exact ⟨fun _ => Or.inl ⟨e, rfl⟩, fun _ => rfl⟩
  | ok accepted =>
      obtain ⟨useCase, w⟩ := accepted
      have hspelled : SpelledAlike items extra assetSymbol ↔ more = [] := hnil.symm
      rw [compose_eq hacc, compose_eq hacc, hspelled]
      constructor
      · intro heq
        have hlength := congrArg (fun c => c.components.length) (Except.ok.inj heq)
        change (tallyOf _ _ _ _ _).components.length = (tallyOf _ _ _ _ _).components.length
          at hlength
        rw [tallyOf_components, tallyOf_components] at hlength
        simp only [List.map_append, List.length_append, List.length_map] at hlength
        exact Or.inr (List.length_eq_zero_iff.mp (by omega))
      · rintro (⟨e, he⟩ | hempty)
        · cases he
        · rw [hempty, List.append_nil]

/-- **Evidence is counted once, and alternates change nothing**, as long as benchmarks are
spelled alike and no negative interval or window is asked for. -/
theorem evidence_counted_once_iff {items extra : List Evidence}
    (h : ∀ x ∈ extra, Repeats items x) (assetSymbol : Option String) (o : ComposeOptions)
    {r : ResolveRequest} (hnow : 0 < r.now) (hages : r.ValidAges) (hwindow : r.ValidWindow)
    (answers : Sources) :
    (composeEvidence (items ++ extra) assetSymbol o = composeEvidence items assetSymbol o ↔
      (∃ e, o.accepted = .error e) ∨ SpelledAlike items extra assetSymbol) ∧
    ∃ decision, ∀ alternates, ∃ res, (r.withAlternates alternates).resolve answers = .ok res ∧
      res.decision = decision ∧ ResolveRequest.FirstUsable r res :=
  ⟨composeEvidence_append_iff h assetSymbol o,
    ResolveRequest.resolve_selects_first hnow hages hwindow answers⟩

/-! ## A second spelling -/

/-- A fresh price-trend item of full strength. -/
def vote (symbol role : String) (regime : Direction) : Evidence where
  role := role
  family := "price_trend"
  classifier := "linear_noise_v1"
  provider := "binance"
  symbol := symbol
  decision := reading regime 6
  evaluatedAt := 1000

/-- The asset and one benchmark rise, another benchmark falls. -/
def votes : List Evidence :=
  [vote "TAOUSDC" "asset_short" .bull, vote "BTCUSDC" "benchmark_short" .bull,
    vote "ETHUSDC" "benchmark_short" .bear]

/-- The first benchmark's evidence again, in lower case: the benchmark counts twice, and the
score moves. -/
theorem respelled_benchmark_counts_twice :
    (∀ x ∈ [vote "btcusdc" "benchmark_short" .bull], Repeats votes x) ∧
      (composeEvidence votes none {}).map Composite.score = .ok (45 / 100) ∧
      (composeEvidence (votes ++ [vote "btcusdc" "benchmark_short" .bull]) none {}).map
        Composite.score = .ok (29 / 60) := by
  decide +kernel

/-- The same item in the same spelling changes nothing. -/
theorem repeated_benchmark_counts_once :
    composeEvidence (votes ++ [vote "BTCUSDC" "benchmark_short" .bull]) none {} =
        composeEvidence votes none {} ∧
      ∃ decision, ∀ alternates, ∃ res,
        (({ providerName := "binance", symbol := "TAOUSDC", now := 1000 } :
          ResolveRequest).withAlternates alternates).resolve
            (fun _ _ _ => ⟨reading .bull 6, some 990, some true⟩) = .ok res ∧
          res.decision = decision ∧
          ResolveRequest.FirstUsable
            { providerName := "binance", symbol := "TAOUSDC", now := 1000 } res := by
  have hrepeats : ∀ x ∈ [vote "BTCUSDC" "benchmark_short" .bull], Repeats votes x := by
    decide +kernel
  have hages : ResolveRequest.ValidAges
      { providerName := "binance", symbol := "TAOUSDC", now := 1000 } :=
    ⟨fun _ hl => (nomatch hl), fun _ _ hl => (nomatch hl)⟩
  have hwindow : ResolveRequest.ValidWindow
      { providerName := "binance", symbol := "TAOUSDC", now := 1000 } :=
    ⟨fun _ hi => (nomatch hi), fun _ hw => (nomatch hw)⟩
  obtain ⟨hcounted, hresolved⟩ := evidence_counted_once_iff hrepeats none {} (by decide +kernel)
    hages hwindow (fun _ _ _ => ⟨reading .bull 6, some 990, some true⟩)
  refine ⟨hcounted.mpr (Or.inr ?_), hresolved⟩
  intro x hx _ _ _
  rw [List.mem_singleton.mp hx]
  decide +kernel

end TradingFleet.Regime
