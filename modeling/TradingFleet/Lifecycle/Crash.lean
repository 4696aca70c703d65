import TradingFleet.Lifecycle.Rules

set_option autoImplicit false

/-! # Crashes between any two calls

One intent, submitted once and reconciled any number of times. Every injected call is numbered
and may answer, raise or be the last one before a crash; the value last given to `persist`
survives, and the next call starts from it. The log holds what was persisted and what the venue
was asked, newest first.
-/

namespace TradingFleet.Lifecycle

open TradingFleet.Hoare TradingFleet.Text

variable {μ : Type}

/-! ## The journal -/

inductive Event (μ : Type) where
  /-- a value given to `persist`, and whether the call returned -/
  | persist (value : Option (Pending μ)) (returned : Bool)
  | submit
  | orderByClientId
  | orderStatus
  | cancelOrder
deriving DecidableEq

def Event.isCancel : Event μ → Bool
  | .cancelOrder => true
  | _ => false

structure Journal (μ : Type) where
  stored : Option (Pending μ) := none
  calls : Nat := 0
  log : List (Event μ) := []

/-- The numbered answers of everything that is injected. An outer error is not caught. -/
structure Surroundings where
  persist : Nat → Except Stop Unit
  submit : Nat → Except Stop (Except Exc Response)
  orderByClientId : Nat → Except Stop (Except Exc Native)
  orderStatus : Nat → Except Stop (Except Exc OrderStatus)
  cancelOrder : Nat → Except Stop (Except Exc Unit)
  clock : Nat → Except Stop Raw
  audit : Nat → Except Stop Unit

/-- One numbered call, with what it adds to the log. -/
def ask {α : Type} (answer : Nat → Except Stop α) (events : List (Event μ)) :
    EStateM Stop (Journal μ) α := fun j =>
  let j' := { j with calls := j.calls + 1, log := events ++ j.log }
  match answer j.calls with
  | .ok a => .ok a j'
  | .error e => .error e j'

def keep (V : Surroundings) (value : Option (Pending μ)) : EStateM Stop (Journal μ) Unit := fun j =>
  let answer := V.persist j.calls
  let j' : Journal μ :=
    { stored := value, calls := j.calls + 1, log := .persist value answer.isOk :: j.log }
  match answer with
  | .ok _ => .ok () j'
  | .error e => .error e j'

def env (V : Surroundings) : Env μ (Journal μ) where
  persist := keep V
  orderByClientId _ _ := ask V.orderByClientId [.orderByClientId]
  orderStatus _ _ := ask V.orderStatus [.orderStatus]
  cancelOrder _ _ := ask V.cancelOrder [.cancelOrder]
  clock := ask V.clock []
  audit _ _ := ask V.audit []

def callback (V : Surroundings) : EStateM Stop (Journal μ) (Except Exc Response) :=
  ask V.submit [.submit]

/-! ## Runs -/

def after {α : Type} : EStateM.Result Stop (Journal μ) α → Journal μ
  | .ok _ j => j
  | .error _ j => j

def submitRun (V : Surroundings) (intent : Pending μ) : Journal μ :=
  after (submit (env V) (callback V) intent {})

/-- One more call of `reconcile`, on the value that survived. -/
def reconcileRun (L : Settings) (V : Surroundings) (j : Journal μ) : Journal μ :=
  match j.stored with
  | none => j
  | some p => after (reconcile L (env V) p j)

/-- `submit` and then `n` calls of `reconcile`. -/
def runs (L : Settings) (V : Surroundings) (intent : Pending μ) : Nat → Journal μ
  | 0 => submitRun V intent
  | n + 1 => reconcileRun L V (runs L V intent n)

/-! ## What a run guarantees -/

/-- The guarantees about the calls of a run. -/
structure CrashSafe (intent : Pending μ) (log : List (Event μ)) : Prop where
  /-- the callback runs after `persist` returned for the intent, and only once -/
  submitted : ∀ newer older, log = newer ++ .submit :: older →
    .persist (some intent) true ∈ older ∧ .submit ∉ newer
  /-- no write changes what was asked for -/
  identity : ∀ p b, .persist (some p) b ∈ log → p.intentId = intent.intentId ∧
    p.clientOrderId = intent.clientOrderId ∧ p.requestedQty = intent.requestedQty
  /-- after a write with an order ID, every write has that order ID -/
  order : ∀ newer older p b, log = newer ++ .persist (some p) b :: older → p.orderKnown = true →
    ∀ value b', .persist value b' ∈ newer → ∃ q, value = some q ∧ q.orderId = p.orderId
  cancelled : log.countP Event.isCancel ≤ 1

/-- What is carried from call to call. -/
structure Inv (intent : Pending μ) (j : Journal μ) : Prop where
  submitted : ∀ newer older, j.log = newer ++ .submit :: older →
    older = [.persist (some intent) true]
  follows : ∀ p b, .persist (some p) b ∈ j.log → intent.Follows p
  order : ∀ newer older p b, j.log = newer ++ .persist (some p) b :: older →
    p.orderKnown = true → ∀ value b', .persist value b' ∈ newer →
      ∃ q, value = some q ∧ q.orderId = p.orderId
  cancelled : j.log.countP Event.isCancel ≤ 1
  tried : j.log.countP Event.isCancel = 1 →
    ∃ p, j.stored = some p ∧ p.cancelTried = true ∧ p.orderKnown = true
  known : ∀ p b, .persist (some p) b ∈ j.log → p.orderKnown = true →
    ∃ q, j.stored = some q ∧ q.orderId = p.orderId
  terminal : ∀ p b t, .persist (some p) b ∈ j.log → p.terminalStatus = some t →
    t.Real ∧ ∃ q, j.stored = some q ∧ q.terminalStatus = some t
  stored : ∀ p, j.stored = some p → ∃ b, .persist (some p) b ∈ j.log
  valid : j.log ≠ [] → validateIdentity intent = .ok ()

theorem Inv.crashSafe {intent : Pending μ} {j : Journal μ} (h : Inv intent j) :
    CrashSafe intent j.log where
  submitted := by
    intro newer older hlog
    have holder := h.submitted newer older hlog
    refine ⟨by rw [holder]; exact List.mem_singleton_self _, fun hmem => ?_⟩
    -- a second call would have the first one before it, and nothing but the write is there
    obtain ⟨newest, between, rfl⟩ := List.append_of_mem hmem
    have hsplit := h.submitted newest (between ++ .submit :: older) (by rw [hlog]; simp)
    have hlen := congrArg List.length hsplit
    have hlen' := congrArg List.length holder
    simp only [List.length_append, List.length_cons, List.length_nil] at hlen hlen'
    omega
  identity := fun p b hp =>
    ⟨(h.follows p b hp).intentId, (h.follows p b hp).clientOrderId, (h.follows p b hp).requestedQty⟩
  order := h.order
  cancelled := h.cancelled

/-- A place in a list that begins with `e` is the beginning or a place in the rest. -/
theorem cons_split {α : Type} {e x : α} {log newer older : List α}
    (h : e :: log = newer ++ x :: older) :
    (newer = [] ∧ e = x ∧ log = older) ∨ ∃ newer', newer = e :: newer' ∧ log = newer' ++ x :: older := by
  cases newer with
  | nil =>
      rw [List.nil_append, List.cons.injEq] at h
      exact Or.inl ⟨rfl, h.1, h.2⟩
  | cons a newer' =>
      rw [List.cons_append, List.cons.injEq] at h
      exact Or.inr ⟨newer', by rw [h.1], h.2⟩

theorem Inv.start (intent : Pending μ) : Inv intent {} where
  submitted := fun newer older h => absurd h.symm (by simp)
  follows := fun p b h => absurd h List.not_mem_nil
  order := fun newer older p b h => absurd h.symm (by simp)
  cancelled := Nat.zero_le 1
  tried := fun h => absurd h (by simp)
  known := fun p b h => absurd h List.not_mem_nil
  terminal := fun p b t h => absurd h List.not_mem_nil
  stored := fun p h => absurd h (by simp)
  valid := fun h => absurd rfl h

/-- The write before the submission. -/
theorem Inv.first {intent : Pending μ} (hnew : intent.terminalStatus = none)
    (hvalid : validateIdentity intent = .ok ()) (n : Nat) (b : Bool) :
    Inv intent { stored := some intent, calls := n, log := [.persist (some intent) b] } := by
  have honly : ∀ p b', .persist (some p) b' ∈ [Event.persist (some intent) b] → p = intent := by
    intro p b' hmem
    cases List.mem_singleton.mp hmem
    rfl
  refine ⟨?_, ?_, ?_, Nat.zero_le 1, fun h => absurd h (by simp [Event.isCancel]), ?_, ?_, ?_,
    fun _ => hvalid⟩
  · intro newer older hlog
    rcases cons_split hlog with ⟨-, heq, -⟩ | ⟨newer', -, hlog'⟩
    · cases heq
    · exact absurd hlog'.symm (by simp)
  · intro p b' hmem
    rw [honly p b' hmem]
    exact .refl intent
  · intro newer older p b' hlog hp value b'' hmem
    rcases cons_split hlog with ⟨rfl, -, -⟩ | ⟨newer', -, hlog'⟩
    · cases hmem
    · exact absurd hlog'.symm (by simp)
  · intro p b' hmem _
    exact ⟨intent, rfl, by rw [honly p b' hmem]⟩
  · intro p b' t hmem ht
    rw [honly p b' hmem, hnew] at ht
    cases ht
  · intro p hp
    cases hp
    exact ⟨b, List.mem_singleton_self _⟩

/-- The submission itself. -/
theorem Inv.submitAsked {intent : Pending μ} {j : Journal μ} (h : Inv intent j)
    (hlog : j.log = [.persist (some intent) true]) (n : Nat) :
    Inv intent { j with calls := n, log := .submit :: j.log } := by
  have hold : ∀ (v : Option (Pending μ)) b', .persist v b' ∈ Event.submit :: j.log →
      Event.persist v b' ∈ j.log := by
    intro v b' hmem
    rcases List.mem_cons.mp hmem with heq | hmem
    · cases heq
    · exact hmem
  refine ⟨?_, fun p' b' hmem => h.follows p' b' (hold _ _ hmem), ?_, h.cancelled, h.tried,
    fun p' b' hmem => h.known p' b' (hold _ _ hmem),
    fun p' b' t hmem => h.terminal p' b' t (hold _ _ hmem), ?_, fun _ => h.valid (by simp [hlog])⟩
  · intro newer older hsplit
    rcases cons_split hsplit with ⟨-, -, hold⟩ | ⟨newer', -, hsplit'⟩
    · rw [← hold, hlog]
    · rw [hlog] at hsplit'
      rcases cons_split hsplit' with ⟨-, heq, -⟩ | ⟨newer'', -, hsplit''⟩
      · cases heq
      · exact absurd hsplit''.symm (by simp)
  · intro newer older p' b' hsplit hp' value b'' hmem
    rcases cons_split hsplit with ⟨-, heq, -⟩ | ⟨newer', rfl, hsplit'⟩
    · cases heq
    · rcases List.mem_cons.mp hmem with heq | hmem
      · cases heq
      · exact h.order newer' older p' b' hsplit' hp' value b'' hmem
  · intro r hr
    obtain ⟨b, hb⟩ := h.stored r hr
    exact ⟨b, List.mem_cons_of_mem _ hb⟩

section Steps

variable {intent : Pending μ}

theorem Inv.ne_nil {j : Journal μ} (h : Inv intent j) {p : Pending μ} (hp : j.stored = some p) :
    j.log ≠ [] := by
  obtain ⟨b, hb⟩ := h.stored p hp
  exact List.ne_nil_of_mem hb

/-- A call that is neither the submission nor the cancel. -/
theorem Inv.asked {j : Journal μ} (h : Inv intent j) {p : Pending μ} (hp : j.stored = some p)
    (events : List (Event μ)) (n : Nat)
    (hquiet : events = [] ∨ events = [.orderByClientId] ∨ events = [.orderStatus]) :
    Inv intent { j with calls := n, log := events ++ j.log } := by
  rcases hquiet with rfl | hquiet
  · exact ⟨h.submitted, h.follows, h.order, h.cancelled, h.tried, h.known, h.terminal, h.stored,
      h.valid⟩
  · obtain ⟨e, rfl, hsubmit, hpersist, hcancel⟩ : ∃ e : Event μ, events = [e] ∧ e ≠ .submit ∧
        (∀ v b, e ≠ .persist v b) ∧ e.isCancel = false := by
      rcases hquiet with rfl | rfl
      · exact ⟨_, rfl, by simp, by simp, rfl⟩
      · exact ⟨_, rfl, by simp, by simp, rfl⟩
    have hold : ∀ v b, .persist v b ∈ e :: j.log → Event.persist v b ∈ j.log := by
      intro v b hmem
      rcases List.mem_cons.mp hmem with heq | hmem
      · exact absurd heq.symm (hpersist v b)
      · exact hmem
    have hcount : (e :: j.log).countP Event.isCancel = j.log.countP Event.isCancel := by
      rw [List.countP_cons, hcancel]
      simp
    refine ⟨?_, fun p b hp => h.follows p b (hold _ _ hp), ?_, ?_, ?_,
      fun p b hp => h.known p b (hold _ _ hp), fun p b t hp => h.terminal p b t (hold _ _ hp), ?_,
      fun _ => h.valid (h.ne_nil hp)⟩
    · intro newer older hlog
      rcases cons_split hlog with ⟨-, heq, -⟩ | ⟨newer', -, hlog'⟩
      · exact absurd heq hsubmit
      · exact h.submitted newer' older hlog'
    · intro newer older p b hlog hp value b' hmem
      rcases cons_split hlog with ⟨-, heq, -⟩ | ⟨newer', rfl, hlog'⟩
      · exact absurd heq (hpersist _ _)
      · rcases List.mem_cons.mp hmem with heq | hmem
        · exact absurd heq.symm (hpersist _ _)
        · exact h.order newer' older p b hlog' hp value b' hmem
    · exact le_of_eq_of_le hcount h.cancelled
    · intro hone
      exact h.tried (hcount ▸ hone)
    · intro p hp
      obtain ⟨b, hb⟩ := h.stored p hp
      exact ⟨b, List.mem_cons_of_mem _ hb⟩

/-- The write of a record that follows the stored one. -/
theorem Inv.wrote {j : Journal μ} {p q : Pending μ} (h : Inv intent j) (hp : j.stored = some p)
    (hpq : p.Follows q) (n : Nat) (b : Bool) :
    Inv intent { stored := some q, calls := n, log := .persist (some q) b :: j.log } := by
  obtain ⟨b₀, hb₀⟩ := h.stored p hp
  -- what an earlier write knows, the stored record still has, and so has the new one
  have hknown : ∀ p' b', .persist (some p') b' ∈ j.log → p'.orderKnown = true →
      q.orderId = p'.orderId := by
    intro p' b' hmem hp'
    obtain ⟨r, hr, hid⟩ := h.known p' b' hmem hp'
    rw [hp, Option.some.injEq] at hr
    rw [← hr] at hid
    have hpk : p.orderKnown = true := by
      unfold Pending.orderKnown at hp' ⊢
      rw [hid]
      exact hp'
    rw [hpq.orderId hpk, hid]
  have hterminal : ∀ p' b' t, .persist (some p') b' ∈ j.log → p'.terminalStatus = some t →
      t.Real ∧ q.terminalStatus = some t := by
    intro p' b' t hmem ht
    obtain ⟨hreal, r, hr, hrt⟩ := h.terminal p' b' t hmem ht
    rw [hp, Option.some.injEq] at hr
    rw [← hr] at hrt
    rcases hpq.terminal with heq | ⟨hnone, -⟩
    · exact ⟨hreal, heq.trans hrt⟩
    · rw [hrt] at hnone
      cases hnone
  refine ⟨?_, ?_, ?_, ?_, ?_, ?_, ?_, ?_, fun _ => h.valid (h.ne_nil hp)⟩
  · intro newer older hlog
    rcases cons_split hlog with ⟨-, heq, -⟩ | ⟨newer', -, hlog'⟩
    · cases heq
    · exact h.submitted newer' older hlog'
  · intro p' b' hmem
    rcases List.mem_cons.mp hmem with heq | hmem
    · cases heq
      exact (h.follows p b₀ hb₀).trans hpq
    · exact h.follows p' b' hmem
  · intro newer older p' b' hlog hp' value b'' hmem
    rcases cons_split hlog with ⟨rfl, -, -⟩ | ⟨newer', rfl, hlog'⟩
    · cases hmem
    · rcases List.mem_cons.mp hmem with heq | hmem
      · cases heq
        exact ⟨q, rfl, hknown p' b' (by rw [hlog']; simp) hp'⟩
      · exact h.order newer' older p' b' hlog' hp' value b'' hmem
  · exact h.cancelled
  · intro hone
    obtain ⟨r, hr, htried, hrk⟩ := h.tried hone
    rw [hp, Option.some.injEq] at hr
    rw [← hr] at htried hrk
    exact ⟨q, rfl, hpq.cancelled htried, hpq.orderKnown hrk⟩
  · intro p' b' hmem hp'
    rcases List.mem_cons.mp hmem with heq | hmem
    · cases heq
      exact ⟨q, rfl, rfl⟩
    · exact ⟨q, rfl, hknown p' b' hmem hp'⟩
  · intro p' b' t hmem ht
    rcases List.mem_cons.mp hmem with heq | hmem
    · cases heq
      refine ⟨?_, q, rfl, ht⟩
      rcases hpq.terminal with heq | ⟨-, t', hreal, ht'⟩
      · exact (h.terminal p b₀ t hb₀ (heq ▸ ht)).1
      · rw [ht', Option.some.injEq] at ht
        rw [← ht]
        exact hreal
    · exact ⟨(hterminal p' b' t hmem ht).1, q, rfl, (hterminal p' b' t hmem ht).2⟩
  · intro r hr
    cases hr
    exact ⟨b, by simp⟩

/-- Clearing the slot of an intent whose order is not known. -/
theorem Inv.cleared {j : Journal μ} {p : Pending μ} (h : Inv intent j) (hp : j.stored = some p)
    (hpk : p.orderKnown = false) (hpt : p.terminalStatus = none) (n : Nat) (b : Bool) :
    Inv intent { stored := none, calls := n, log := .persist none b :: j.log } := by
  have hnone : ∀ p' b', .persist (some p') b' ∈ j.log → p'.orderKnown ≠ true := by
    intro p' b' hmem hp'
    obtain ⟨r, hr, hid⟩ := h.known p' b' hmem hp'
    rw [hp, Option.some.injEq] at hr
    rw [← hr] at hid
    unfold Pending.orderKnown at hpk hp'
    rw [hid, hp'] at hpk
    cases hpk
  have hold : ∀ (v : Pending μ) b', .persist (some v) b' ∈ Event.persist none b :: j.log →
      Event.persist (some v) b' ∈ j.log := by
    intro v b' hmem
    rcases List.mem_cons.mp hmem with heq | hmem
    · cases heq
    · exact hmem
  refine ⟨?_, fun p' b' hmem => h.follows p' b' (hold _ _ hmem), ?_, h.cancelled, ?_,
    fun p' b' hmem hp' => absurd hp' (hnone p' b' (hold _ _ hmem)), ?_,
    fun r hr => absurd hr (by simp), fun _ => h.valid (h.ne_nil hp)⟩
  · intro newer older hlog
    rcases cons_split hlog with ⟨-, heq, -⟩ | ⟨newer', -, hlog'⟩
    · cases heq
    · exact h.submitted newer' older hlog'
  · intro newer older p' b' hlog hp'
    rcases cons_split hlog with ⟨-, heq, -⟩ | ⟨newer', -, hlog'⟩
    · cases heq
    · exact absurd hp' (hnone p' b' (by rw [hlog']; simp))
  · intro hone
    obtain ⟨r, hr, -, hrk⟩ := h.tried hone
    rw [hp, Option.some.injEq] at hr
    rw [← hr, hpk] at hrk
    cases hrk
  · intro p' b' t hmem ht
    obtain ⟨-, r, hr, hrt⟩ := h.terminal p' b' t (hold _ _ hmem) ht
    rw [hp, Option.some.injEq] at hr
    rw [← hr, hpt] at hrt
    cases hrt

/-- The one cancel, of an order for which it is already recorded. -/
theorem Inv.cancelAsked {j : Journal μ} {p : Pending μ} (h : Inv intent j) (hp : j.stored = some p)
    (htried : p.cancelTried = true) (hpk : p.orderKnown = true)
    (hzero : j.log.countP Event.isCancel = 0) (n : Nat) :
    Inv intent { j with calls := n, log := .cancelOrder :: j.log } := by
  have hold : ∀ (v : Option (Pending μ)) b', .persist v b' ∈ Event.cancelOrder :: j.log →
      Event.persist v b' ∈ j.log := by
    intro v b' hmem
    rcases List.mem_cons.mp hmem with heq | hmem
    · cases heq
    · exact hmem
  have hcount : (Event.cancelOrder :: j.log).countP Event.isCancel = 1 := by
    rw [List.countP_cons, hzero]
    rfl
  refine ⟨?_, fun p' b' hmem => h.follows p' b' (hold _ _ hmem), ?_, le_of_eq hcount,
    fun _ => ⟨p, hp, htried, hpk⟩, fun p' b' hmem => h.known p' b' (hold _ _ hmem),
    fun p' b' t hmem => h.terminal p' b' t (hold _ _ hmem), ?_, fun _ => h.valid (h.ne_nil hp)⟩
  · intro newer older hlog
    rcases cons_split hlog with ⟨-, heq, -⟩ | ⟨newer', -, hlog'⟩
    · cases heq
    · exact h.submitted newer' older hlog'
  · intro newer older p' b' hlog hp' value b'' hmem
    rcases cons_split hlog with ⟨-, heq, -⟩ | ⟨newer', rfl, hlog'⟩
    · cases heq
    · rcases List.mem_cons.mp hmem with heq | hmem
      · cases heq
      · exact h.order newer' older p' b' hlog' hp' value b'' hmem
  · intro r hr
    obtain ⟨b, hb⟩ := h.stored r hr
    exact ⟨b, List.mem_cons_of_mem _ hb⟩

/-! ## The environment keeps it -/

/-- The stored intent is `p`; with `due`, its cancel is recorded and was not requested. -/
def Holds (intent : Pending μ) (due : Bool) (p : Pending μ) (j : Journal μ) : Prop :=
  j.stored = some p ∧ Inv intent j ∧
    (due = true → p.cancelTried = true ∧ p.orderKnown = true ∧ j.log.countP Event.isCancel = 0)

def Gone (intent : Pending μ) (_ : Pending μ) (j : Journal μ) : Prop :=
  j.stored = none ∧ Inv intent j

def Halted (intent : Pending μ) (_ : Stop) (j : Journal μ) : Prop := Inv intent j

/-- A numbered call, from what its place in the log and the counter do. -/
theorem ask_triple {α : Type} {answer : Nat → Except Stop α} {events : List (Event μ)}
    {P Q : Journal μ → Prop} (hQ : ∀ j, P j → Q { j with
      calls := j.calls + 1, log := events ++ j.log })
    (hinv : ∀ j, Q j → Inv intent j) :
    Triple P (ask answer events) (fun _ => Q) (Halted intent) := by
  intro j hj
  have hq := hQ j hj
  unfold ask
  cases answer j.calls with
  | ok a => exact hq
  | error e => exact hinv _ hq

theorem keep_triple {V : Surroundings} {value : Option (Pending μ)} {P Q : Journal μ → Prop}
    (hQ : ∀ j b, P j → Q { stored := value, calls := j.calls + 1, log := .persist value b :: j.log })
    (hinv : ∀ j, Q j → Inv intent j) :
    Triple P (keep V value) (fun _ => Q) (Halted intent) := by
  intro j hj
  have hq := hQ j (V.persist j.calls).isOk hj
  unfold keep
  cases hanswer : V.persist j.calls with
  | ok a =>
      rw [hanswer] at hq
      exact hq
  | error e =>
      rw [hanswer] at hq
      exact hinv _ hq

theorem Holds.inv {due : Bool} {p : Pending μ} {j : Journal μ} (h : Holds intent due p j) :
    Inv intent j := h.2.1

/-- A call that leaves the slot alone. -/
theorem Holds.asked {due : Bool} {p : Pending μ} {j : Journal μ} (h : Holds intent due p j)
    (events : List (Event μ)) (n : Nat)
    (hquiet : events = [] ∨ events = [.orderByClientId] ∨ events = [.orderStatus]) :
    Holds intent due p { j with calls := n, log := events ++ j.log } := by
  refine ⟨h.1, h.2.1.asked h.1 events n hquiet, fun hdue => ?_⟩
  obtain ⟨htried, hknown, hzero⟩ := h.2.2 hdue
  refine ⟨htried, hknown, ?_⟩
  rcases hquiet with rfl | rfl | rfl
  · exact hzero
  · simpa [Event.isCancel] using hzero
  · simpa [Event.isCancel] using hzero

theorem env_owner (V : Surroundings) :
    Owner (env V) (Holds intent) (Gone intent) (Halted intent) where
  persist := by
    intro p q hpq _
    refine keep_triple (fun j b hj => ?_) (fun j hj => hj.inv)
    exact ⟨rfl, hj.2.1.wrote hj.1 hpq _ b, fun h => by cases h⟩
  attempt := by
    intro p t ht htried hknown
    refine keep_triple (fun j b hj => ?_) (fun j hj => hj.inv)
    have hfollows : p.Follows (p.cancelling t) :=
      { Pending.Follows.refl p with cancelled := fun h => by rw [htried] at h; cases h }
    refine ⟨rfl, hj.2.1.wrote hj.1 hfollows _ b, fun _ => ⟨?_, hknown, ?_⟩⟩
    · show (Raw.positive (some t)).isSome = true
      simp [Raw.positive, Option.filter, ht]
    · -- a cancel in the log would be recorded in the stored intent
      have hle := hj.2.1.cancelled
      show j.log.countP Event.isCancel = 0
      by_contra hne
      obtain ⟨r, hr, hrt, -⟩ := hj.2.1.tried (by omega)
      rw [hj.1, Option.some.injEq] at hr
      rw [← hr, htried] at hrt
      cases hrt
  release := by
    intro p hknown hterminal
    refine keep_triple (fun j b hj => ?_) (fun j hj => hj.2)
    exact ⟨rfl, hj.2.1.cleared hj.1 hknown hterminal _ b⟩
  orderByClientId := fun p =>
    ask_triple (fun j hj => hj.asked _ _ (Or.inr (Or.inl rfl))) (fun j hj => hj.inv)
  orderStatus := fun p orderId =>
    ask_triple (fun j hj => hj.asked _ _ (Or.inr (Or.inr rfl))) (fun j hj => hj.inv)
  cancelOrder := by
    intro p orderId
    refine ask_triple (fun j hj => ?_) (fun j hj => hj.inv)
    obtain ⟨htried, hknown, hzero⟩ := hj.2.2 rfl
    exact ⟨hj.1, hj.2.1.cancelAsked hj.1 htried hknown hzero _, fun h => by cases h⟩
  clock := fun p => ask_triple (fun j hj => hj.asked _ _ (Or.inl rfl)) (fun j hj => hj.inv)
  audit := fun b event p q =>
    ask_triple (fun j hj => hj.asked _ _ (Or.inl rfl)) (fun j hj => hj.inv)
  auditGone := by
    intro event p q
    refine ask_triple (fun j hj => ?_) (fun j hj => hj.2)
    have h := hj.2
    exact ⟨hj.1, ⟨h.submitted, h.follows, h.order, h.cancelled, h.tried, h.known, h.terminal,
      h.stored, h.valid⟩⟩
  raised := fun p e s hs => hs.inv

end Steps

/-! ## Whole runs -/

section Runs

variable (L : Settings) (V : Surroundings) {intent : Pending μ}

theorem after_inv {α : Type} {x : EStateM Stop (Journal μ) α} {P : Journal μ → Prop}
    {Q : α → Journal μ → Prop} (h : Triple P x Q (Halted intent))
    (hQ : ∀ a j, Q a j → Inv intent j) {j : Journal μ} (hj : P j) : Inv intent (after (x j)) := by
  have hpost := h j hj
  cases hx : x j with
  | ok a j' =>
      rw [hx] at hpost
      exact hQ a j' hpost
  | error e j' =>
      rw [hx] at hpost
      exact hpost

theorem submitRun_inv (hknown : intent.orderKnown = false) (hnew : intent.terminalStatus = none) :
    Inv intent (submitRun V intent) := by
  let running : Journal μ → Prop := fun j =>
    Inv intent j ∧ j.stored = some intent ∧ j.log = [.persist (some intent) true]
  have hfirst : validateIdentity intent = .ok () → Triple (fun j : Journal μ => j = {})
      ((env V).persist (some intent)) (fun _ => running) (Halted intent) := by
    intro hvalid j hj
    subst hj
    show Post _ _ (keep V (some intent) {})
    unfold keep
    cases V.persist 0 with
    | ok a => exact ⟨Inv.first hnew hvalid 1 true, rfl, rfl⟩
    | error e => exact Inv.first hnew hvalid 1 false
  have haudit : Triple running ((env V).audit .submitRequested intent) (fun _ => running)
      (Halted intent) :=
    ask_triple (fun j hj => ⟨hj.1.asked hj.2.1 [] _ (Or.inl rfl), hj.2⟩) (fun j hj => hj.1)
  have hcall : Triple running (callback V) (fun _ => Holds intent false intent) (Halted intent) :=
    ask_triple (fun j hj => ⟨hj.2.1, hj.1.submitAsked hj.2.2 _, fun h => by cases h⟩)
      (fun j hj => hj.inv)
  have hraise : ∀ (e : Exc) (j : Journal μ), j = {} → Halted intent (.raised e) j := by
    rintro e j rfl
    exact Inv.start intent
  exact after_inv (submit_triple (env_owner V) hknown hfirst haudit hcall hraise)
    (fun r j hr => hr.stored.inv) rfl

theorem reconcileRun_inv {j : Journal μ} (h : Inv intent j) : Inv intent (reconcileRun L V j) := by
  unfold reconcileRun
  cases hp : j.stored with
  | none => exact h
  | some p =>
      obtain ⟨b, hb⟩ := h.stored p hp
      refine after_inv (reconcile_triple (env_owner V) L p ?_) (fun r j' hr => ?_)
        (⟨hp, h, fun hdue => by cases hdue⟩ : Holds intent false p j)
      · exact fun t ht => (h.terminal p b t hb ht).1
      · -- every outcome but a refusal says what is stored
        cases ho : r.outcome with
        | active => exact (hr.stored (Or.inl ho)).inv
        | terminal => exact (hr.stored (Or.inr ho)).inv
        | absent => exact (hr.released (Or.inl ho)).2.2
        | retryable => exact (hr.released (Or.inr ho)).2.2
        | refused => exact absurd ho hr.outcome

theorem runs_inv (hknown : intent.orderKnown = false) (hnew : intent.terminalStatus = none)
    (n : Nat) : Inv intent (runs L V intent n) := by
  induction n with
  | zero => exact submitRun_inv V hknown hnew
  | succ n ih => exact reconcileRun_inv L V ih

/-- After a terminal status was stored, `reconcile` asks nobody and returns that status. -/
theorem reconcile_cached {j : Journal μ} (h : Inv intent j) {p : Pending μ} {b : Bool}
    {t : TerminalPayload} (hp : .persist (some p) b ∈ j.log) (ht : p.terminalStatus = some t) :
    ∃ q status observedAt, t = terminalPayload status observedAt ∧ j.stored = some q ∧
      reconcile L (env V) q j = .ok ⟨.terminal, q, some status⟩ j := by
  obtain ⟨hreal, q, hq, hqt⟩ := h.terminal p b t hp ht
  obtain ⟨status, observedAt, heq, hstatus⟩ := hreal.status
  obtain ⟨b', hb'⟩ := h.stored q hq
  refine ⟨q, status, observedAt, heq, hq, ?_⟩
  have hvalid : validateIdentity q = .ok () := by
    rw [(h.follows q b' hb').valid]
    exact h.valid (h.ne_nil hq)
  unfold reconcile
  rw [hvalid, hqt, hstatus]
  rfl

end Runs

/-- For every intent that `new_intent` makes and everything its surroundings may do, in every
run of one `submit` and any number of `reconcile` calls: the calls are crash-safe, and once a
terminal status was given to `persist`, every later `reconcile` returns it without a call of any
kind. -/
theorem lifecycle_crash_safe (L : Settings) (V : Surroundings) (a : NewIntent μ) (createdAt : ℚ)
    (n : Nat) :
    CrashSafe (a.record createdAt) (runs L V (a.record createdAt) n).log ∧
      ∀ p b t, .persist (some p) b ∈ (runs L V (a.record createdAt) n).log →
        p.terminalStatus = some t →
        ∃ q status observedAt, t = terminalPayload status observedAt ∧
          (runs L V (a.record createdAt) n).stored = some q ∧
          reconcile L (env V) q (runs L V (a.record createdAt) n) =
            .ok ⟨.terminal, q, some status⟩ (runs L V (a.record createdAt) n) := by
  have hinv : Inv (a.record createdAt) (runs L V (a.record createdAt) n) := runs_inv L V rfl rfl n
  exact ⟨hinv.crashSafe, fun p b t hp ht => reconcile_cached L V hinv hp ht⟩

/-- The order is accepted, its status stays open, the cancel raises and the next write after it
crashes. -/
def stubborn : Surroundings where
  persist n := if n = 11 then .error .crash else .ok ()
  submit _ := .ok (.ok (.native (.value (.text "O-1"))))
  orderByClientId _ := .ok (.ok .missing)
  orderStatus _ := .ok (.ok ⟨.opened, 0, 0, 0, "", OrderStatus.nothing_nonneg,
    OrderStatus.nothing_nonneg, upper_empty⟩)
  cancelOrder _ := .ok (.error ⟨.provider, "ProviderError", "timeout"⟩)
  clock _ := .ok (some 1000)
  audit _ := .ok ()

-- the cancel is requested in the first of three calls and never again
example :
    let intent : NewIntent Unit :=
      { intentId := "i", clientOrderId := "c", symbol := "S", side := .sell, requestedQty := 3,
        metadata := () }
    let L : Settings := ⟨2, false, some 900, by decide, fun age h => by
      cases h
      norm_num⟩
    (runs L stubborn (intent.record 10) 3).log.countP Event.isCancel = 1 ∧
      (runs L stubborn (intent.record 10) 3).stored.map Pending.cancelAttemptedAt =
        some (some 1000) := by
  decide +kernel

end TradingFleet.Lifecycle
