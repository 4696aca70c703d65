import Mathlib.Data.List.Basic

set_option autoImplicit false

/-! # Pre- and postconditions of programs that may raise

A program is an `EStateM`: it reads and writes a state, and when it raises, what it wrote
stays written. `Triple P x Q E` says what holds after `x` when `P` held before: `Q` of the
value and the state if it returned, `E` of the exception and the state if it raised. The
rules below follow the way programs are put together; `Keeps` is the case of an invariant.
-/

namespace TradingFleet.Hoare

variable {ε σ α β : Type}

/-- The outcome of a run satisfies one of the two postconditions. -/
def Post (Q : α → σ → Prop) (E : ε → σ → Prop) : EStateM.Result ε σ α → Prop
  | .ok a s => Q a s
  | .error e s => E e s

instance (Q : α → σ → Prop) (E : ε → σ → Prop) [∀ a s, Decidable (Q a s)]
    [∀ e s, Decidable (E e s)] (r : EStateM.Result ε σ α) : Decidable (Post Q E r) :=
  match r with
  | .ok a s => inferInstanceAs (Decidable (Q a s))
  | .error e s => inferInstanceAs (Decidable (E e s))

def Triple (P : σ → Prop) (x : EStateM ε σ α) (Q : α → σ → Prop) (E : ε → σ → Prop) : Prop :=
  ∀ s, P s → Post Q E (x s)

section Rules

variable {P P' : σ → Prop} {Q Q' : α → σ → Prop} {R : β → σ → Prop} {E E' : ε → σ → Prop}

theorem Triple.pure {a : α} (h : ∀ s, P s → Q a s) :
    Triple P (Pure.pure a : EStateM ε σ α) Q E :=
  fun s hs => h s hs

theorem Triple.throw {e : ε} (h : ∀ s, P s → E e s) :
    Triple P (MonadExcept.throw e : EStateM ε σ α) Q E :=
  fun s hs => h s hs

theorem Triple.bind {x : EStateM ε σ α} {f : α → EStateM ε σ β} (hx : Triple P x Q E)
    (hf : ∀ a, Triple (Q a) (f a) R E) : Triple P (x >>= f) R E := by
  intro s hs
  have h := hx s hs
  show Post R E (EStateM.bind x f s)
  unfold EStateM.bind
  cases hxs : x s with
  | ok a s' =>
      rw [hxs] at h
      exact hf a s' h
  | error e s' =>
      rw [hxs] at h
      exact h

/-- Reading the state: afterwards the value read is the state. -/
theorem Triple.get {f : σ → EStateM ε σ β} (h : ∀ s₀, P s₀ → Triple (· = s₀) (f s₀) R E) :
    Triple P (MonadState.get >>= f) R E :=
  fun s hs => h s hs s rfl

theorem Triple.updates {f : σ → σ} {Q : PUnit → σ → Prop} (h : ∀ s, P s → Q ⟨⟩ (f s)) :
    Triple P (modify f : EStateM ε σ PUnit) Q E :=
  fun s hs => h s hs

/-- An exception is caught with everything the program wrote before it. -/
theorem Triple.tryCatch {x : EStateM ε σ α} {handler : ε → EStateM ε σ α}
    (hx : Triple P x Q E') (hh : ∀ e, Triple (E' e) (handler e) Q E) :
    Triple P (MonadExcept.tryCatch x handler) Q E := by
  intro s hs
  have h := hx s hs
  show Post Q E (EStateM.tryCatch x handler s)
  unfold EStateM.tryCatch
  cases hxs : x s with
  | ok a s' =>
      simp only
      rw [hxs] at h
      exact h
  | error e s' =>
      simp only
      rw [hxs] at h
      exact hh e s' h

theorem Triple.conseq {x : EStateM ε σ α} (h : Triple P x Q E) (hP : ∀ s, P' s → P s)
    (hQ : ∀ a s, Q a s → Q' a s) (hE : ∀ e s, E e s → E' e s) : Triple P' x Q' E' := by
  intro s hs
  have hpost := h s (hP s hs)
  cases hxs : x s with
  | ok a s' =>
      rw [hxs] at hpost
      exact hQ a s' hpost
  | error e s' =>
      rw [hxs] at hpost
      exact hE e s' hpost

theorem Triple.weaken {x : EStateM ε σ α} (h : Triple P x Q E) (hQ : ∀ a s, Q a s → Q' a s) :
    Triple P x Q' E :=
  h.conseq (fun _ hs => hs) hQ (fun _ _ he => he)

theorem Triple.strengthen {x : EStateM ε σ α} (h : Triple P x Q E) (hP : ∀ s, P' s → P s) :
    Triple P' x Q E :=
  h.conseq hP (fun _ _ hq => hq) (fun _ _ he => he)

/-- A pure fact of the precondition is available while the program is analysed. -/
theorem Triple.of_fact {p : Prop} {x : EStateM ε σ α} (h : p → Triple P x Q E) :
    Triple (fun s => p ∧ P s) x Q E :=
  fun s hs => h hs.1 s hs.2

/-- A test whose outcome does not matter. -/
theorem Triple.ite {c : Prop} [Decidable c] {x y : EStateM ε σ α} (hx : Triple P x Q E)
    (hy : Triple P y Q E) : Triple P (if c then x else y) Q E := by
  by_cases h : c
  · rw [if_pos h]
    exact hx
  · rw [if_neg h]
    exact hy

/-- A loop over a list: `I` speaks about the elements done and the accumulator. -/
theorem Triple.foldlM {I : List β → α → σ → Prop} {f : α → β → EStateM ε σ α} {l : List β}
    (h : ∀ done b rest acc, l = done ++ b :: rest →
      Triple (I done acc) (f acc b) (I (done ++ [b])) E) (acc : α) :
    Triple (I [] acc) (l.foldlM f acc) (I l) E := by
  have loop : ∀ rest done acc, l = done ++ rest →
      Triple (I done acc) (rest.foldlM f acc) (I l) E := by
    intro rest
    induction rest with
    | nil =>
        intro done acc hl
        rw [List.append_nil] at hl
        rw [List.foldlM_nil]
        exact Triple.pure (fun s hs => hl ▸ hs)
    | cons b rest ih =>
        intro done acc hl
        rw [List.foldlM_cons]
        refine Triple.bind (h done b rest acc hl) (fun acc' => ?_)
        exact ih (done ++ [b]) acc' (by rw [hl, List.append_assoc, List.singleton_append])
  exact loop l [] acc rfl

/-- The same for a loop without an accumulator. -/
theorem Triple.forM {I : List β → σ → Prop} {f : β → EStateM ε σ PUnit} {l : List β}
    (h : ∀ done b rest, l = done ++ b :: rest →
      Triple (I done) (f b) (fun _ => I (done ++ [b])) E) :
    Triple (I []) (l.forM f) (fun _ => I l) E := by
  have loop : ∀ rest done, l = done ++ rest →
      Triple (I done) (rest.forM f) (fun _ => I l) E := by
    intro rest
    induction rest with
    | nil =>
        intro done hl
        rw [List.append_nil] at hl
        exact Triple.pure (fun s hs => hl ▸ hs)
    | cons b rest ih =>
        intro done hl
        rw [List.forM_eq_forM, List.forM_cons]
        refine Triple.bind (h done b rest hl) (fun _ => ?_)
        exact ih (done ++ [b]) (by rw [hl, List.append_assoc, List.singleton_append])
  exact loop l [] rfl

/-- A loop over the positions below `n`. -/
theorem Triple.rangeM {I : Nat → α → σ → Prop} {f : α → Nat → EStateM ε σ α} (n : Nat)
    (h : ∀ i, i < n → ∀ acc, Triple (I i acc) (f acc i) (I (i + 1)) E) (acc : α) :
    Triple (I 0 acc) ((List.range n).foldlM f acc) (I n) E := by
  refine (Triple.foldlM (I := fun done a s => I done.length a s) ?_ acc).weaken ?_
  · intro done i rest acc hl
    have hi : i = done.length ∧ i < n := by
      have hget : (List.range n)[done.length]? = some i := by rw [hl]; simp
      obtain ⟨hlt, heq⟩ := List.getElem?_eq_some_iff.mp hget
      rw [List.getElem_range] at heq
      rw [List.length_range] at hlt
      omega
    rw [List.length_append, List.length_singleton, ← hi.1]
    exact h i hi.2 acc
  · intro a s hs
    rwa [List.length_range] at hs

theorem Triple.and {x : EStateM ε σ α} (h : Triple P x Q E) (h' : Triple P' x Q' E') :
    Triple (fun s => P s ∧ P' s) x (fun a s => Q a s ∧ Q' a s) (fun e s => E e s ∧ E' e s) := by
  intro s hs
  have hpost := h s hs.1
  have hpost' := h' s hs.2
  cases hxs : x s with
  | ok a s' =>
      rw [hxs] at hpost hpost'
      exact ⟨hpost, hpost'⟩
  | error e s' =>
      rw [hxs] at hpost hpost'
      exact ⟨hpost, hpost'⟩

end Rules

/-! ## Frames -/

/-- `x` changes the state only along `R`, also when it raises. -/
def Moves (R : σ → σ → Prop) (x : EStateM ε σ α) : Prop :=
  ∀ s, Post (fun _ s' => R s s') (fun _ s' => R s s') (x s)

section Frames

variable {R : σ → σ → Prop}

theorem Moves.pure (hrefl : ∀ s, R s s) (a : α) : Moves R (Pure.pure a : EStateM ε σ α) :=
  fun s => hrefl s

theorem Moves.throw (hrefl : ∀ s, R s s) (e : ε) :
    Moves R (MonadExcept.throw e : EStateM ε σ α) :=
  fun s => hrefl s

theorem Moves.bind (htrans : ∀ s s' s'', R s s' → R s' s'' → R s s'') {x : EStateM ε σ α}
    {f : α → EStateM ε σ β} (hx : Moves R x) (hf : ∀ a, Moves R (f a)) : Moves R (x >>= f) := by
  intro s
  have h := hx s
  show Post _ _ (EStateM.bind x f s)
  unfold EStateM.bind
  cases hxs : x s with
  | error e s' =>
      rw [hxs] at h
      exact h
  | ok a s' =>
      rw [hxs] at h
      have h' := hf a s'
      simp only
      cases hfs : f a s' with
      | ok b s'' =>
          rw [hfs] at h'
          exact htrans _ _ _ h h'
      | error e s'' =>
          rw [hfs] at h'
          exact htrans _ _ _ h h'

theorem Moves.foldlM (hrefl : ∀ s, R s s) (htrans : ∀ s s' s'', R s s' → R s' s'' → R s s'')
    {f : α → β → EStateM ε σ α} (h : ∀ acc b, Moves R (f acc b)) (acc : α) (l : List β) :
    Moves R (l.foldlM f acc) := by
  induction l generalizing acc with
  | nil => exact Moves.pure hrefl acc
  | cons b rest ih =>
      rw [List.foldlM_cons]
      exact Moves.bind htrans (h acc b) (fun acc' => ih acc')

/-- What `R` preserves holds afterwards. -/
theorem Moves.triple {x : EStateM ε σ α} (h : Moves R x) {P Q : σ → Prop}
    (hpres : ∀ s s', P s → R s s' → Q s') : Triple P x (fun _ => Q) (fun _ => Q) := by
  intro s hs
  have hpost := h s
  cases hxs : x s with
  | ok a s' =>
      rw [hxs] at hpost
      exact hpres s s' hs hpost
  | error e s' =>
      rw [hxs] at hpost
      exact hpres s s' hs hpost

/-- A caught exception: the handler goes on from what `x` left. -/
theorem Moves.tryCatch (htrans : ∀ s s' s'', R s s' → R s' s'' → R s s'') {x : EStateM ε σ α}
    {handler : ε → EStateM ε σ α} (hx : Moves R x) (hh : ∀ e, Moves R (handler e)) :
    Moves R (MonadExcept.tryCatch x handler) := by
  intro s
  have h := hx s
  show Post _ _ (EStateM.tryCatch x handler s)
  unfold EStateM.tryCatch
  cases hxs : x s with
  | ok a s' =>
      rw [hxs] at h
      exact h
  | error e s' =>
      rw [hxs] at h
      have h' := hh e s'
      show Post _ _ (handler e s')
      cases hes : handler e s' with
      | ok b s'' =>
          rw [hes] at h'
          exact htrans _ _ _ h h'
      | error e' s'' =>
          rw [hes] at h'
          exact htrans _ _ _ h h'

theorem Moves.weaken {R' : σ → σ → Prop} {x : EStateM ε σ α} (h : Moves R x)
    (hR : ∀ s s', R s s' → R' s s') : Moves R' x := by
  intro s
  have hpost := h s
  cases hxs : x s with
  | ok a s' =>
      rw [hxs] at hpost
      exact hR _ _ hpost
  | error e s' =>
      rw [hxs] at hpost
      exact hR _ _ hpost

end Frames

/-! ## Runs taken apart -/

section Runs

variable {Q : β → σ → Prop} {E : ε → σ → Prop} {R : σ → σ → Prop} {s s' : σ}

/-- A program that goes on after `x`: what `x` raised, or how it goes on. -/
theorem Post.bind {x : EStateM ε σ α} {f : α → EStateM ε σ β}
    (herror : ∀ e s', x s = .error e s' → E e s')
    (hok : ∀ a s', x s = .ok a s' → Post Q E (f a s')) : Post Q E ((x >>= f) s) := by
  show Post Q E (EStateM.bind x f s)
  unfold EStateM.bind
  cases hx : x s with
  | ok a s' => exact hok a s' hx
  | error e s' => exact herror e s' hx

theorem Post.ok {Q : α → σ → Prop} {r : EStateM.Result ε σ α} {a : α} (h : Post Q E r)
    (hr : r = .ok a s) : Q a s := by
  rw [hr] at h
  exact h

theorem Post.error {Q : α → σ → Prop} {r : EStateM.Result ε σ α} {e : ε} (h : Post Q E r)
    (hr : r = .error e s) : E e s := by
  rw [hr] at h
  exact h

/-- A run that ends well is one of `x` and one of what follows. -/
theorem bind_ok {x : EStateM ε σ α} {f : α → EStateM ε σ β} {b : β}
    (h : (x >>= f) s = .ok b s') : ∃ a s₁, x s = .ok a s₁ ∧ f a s₁ = .ok b s' := by
  have hbind : EStateM.bind x f s = .ok b s' := h
  unfold EStateM.bind at hbind
  cases hx : x s with
  | ok a s₁ =>
      rw [hx] at hbind
      exact ⟨a, s₁, rfl, hbind⟩
  | error e s₁ =>
      rw [hx] at hbind
      cases hbind

theorem Moves.ok {x : EStateM ε σ α} (h : Moves R x) {a : α} (hx : x s = .ok a s') : R s s' := by
  have hpost := h s
  rw [hx] at hpost
  exact hpost

theorem Moves.error {x : EStateM ε σ α} (h : Moves R x) {e : ε} (hx : x s = .error e s') :
    R s s' := by
  have hpost := h s
  rw [hx] at hpost
  exact hpost

end Runs

/-! ## Invariants -/

/-- `x` keeps `I`, also when it raises. -/
def Keeps (I : σ → Prop) (x : EStateM ε σ α) : Prop := Triple I x (fun _ => I) (fun _ => I)

section Invariants

variable {I : σ → Prop}

theorem Keeps.pure (a : α) : Keeps I (Pure.pure a : EStateM ε σ α) := Triple.pure (fun _ h => h)

theorem Keeps.throw (e : ε) : Keeps I (MonadExcept.throw e : EStateM ε σ α) :=
  Triple.throw (fun _ h => h)

theorem Keeps.bind {x : EStateM ε σ α} {f : α → EStateM ε σ β} (hx : Keeps I x)
    (hf : ∀ a, Keeps I (f a)) : Keeps I (x >>= f) :=
  Triple.bind hx hf

theorem Keeps.foldlM {f : α → β → EStateM ε σ α} (h : ∀ acc b, Keeps I (f acc b)) (acc : α)
    (l : List β) : Keeps I (l.foldlM f acc) :=
  Triple.foldlM (I := fun _ _ => I) (fun _ b _ acc _ => h acc b) acc

end Invariants

/-! ## Two programs in step -/

/-- Two runs end alike: with the same value or the same exception, in related states. -/
inductive SameEnd (R : σ → σ → Prop) : EStateM.Result ε σ α → EStateM.Result ε σ α → Prop
  | ok {s t : σ} (a : α) (h : R s t) : SameEnd R (.ok a s) (.ok a t)
  | error {s t : σ} (e : ε) (h : R s t) : SameEnd R (.error e s) (.error e t)

/-- From related states, `x` and `y` end alike. -/
def Coupled (R : σ → σ → Prop) (x y : EStateM ε σ α) : Prop := ∀ s t, R s t → SameEnd R (x s) (y t)

section Coupling

variable {R : σ → σ → Prop}

theorem Coupled.pure (a : α) : Coupled R (Pure.pure a : EStateM ε σ α) (Pure.pure a) :=
  fun _ _ h => .ok a h

theorem Coupled.throw (e : ε) :
    Coupled R (MonadExcept.throw e : EStateM ε σ α) (MonadExcept.throw e) :=
  fun _ _ h => .error e h

theorem Coupled.bind {x y : EStateM ε σ α} {f g : α → EStateM ε σ β} (hx : Coupled R x y)
    (hf : ∀ a, Coupled R (f a) (g a)) : Coupled R (x >>= f) (y >>= g) := by
  intro s t h
  have hxy := hx s t h
  show SameEnd R (EStateM.bind x f s) (EStateM.bind y g t)
  unfold EStateM.bind
  cases hxs : x s with
  | ok a s' =>
      cases hyt : y t with
      | ok b t' =>
          rw [hxs, hyt] at hxy
          cases hxy with
          | ok _ hR => exact hf a s' t' hR
      | error e t' =>
          rw [hxs, hyt] at hxy
          cases hxy
  | error e s' =>
      cases hyt : y t with
      | ok b t' =>
          rw [hxs, hyt] at hxy
          cases hxy
      | error e' t' =>
          rw [hxs, hyt] at hxy
          cases hxy with
          | error _ hR => exact .error e hR

/-- A relation may be replaced by another with the same pairs. -/
theorem Coupled.congr {R' : σ → σ → Prop} {x y : EStateM ε σ α} (hR : ∀ s t, R s t ↔ R' s t)
    (h : Coupled R x y) : Coupled R' x y := by
  intro s t hst
  have hend := h s t ((hR s t).mpr hst)
  generalize x s = r at hend ⊢
  generalize y t = r' at hend ⊢
  cases hend with
  | ok a h' => exact .ok a ((hR _ _).mp h')
  | error e h' => exact .error e ((hR _ _).mp h')

theorem Coupled.foldlM {f g : α → β → EStateM ε σ α} (h : ∀ acc b, Coupled R (f acc b) (g acc b))
    (acc : α) (l : List β) : Coupled R (l.foldlM f acc) (l.foldlM g acc) := by
  induction l generalizing acc with
  | nil => exact Coupled.pure acc
  | cons b rest ih =>
      rw [List.foldlM_cons, List.foldlM_cons]
      exact Coupled.bind (h acc b) (fun acc' => ih acc')

end Coupling

end TradingFleet.Hoare
