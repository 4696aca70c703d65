import Mathlib.Algebra.Order.Group.Unbundled.Abs
import Mathlib.Tactic.Linarith
import TradingFleet.Basic.Keyed
import TradingFleet.Basic.Runs
import TradingFleet.Lock.Cooldown

set_option autoImplicit false

/-! # One operation per key within the TTL

The entry of a key names the operations that hold it (`State.holders`). While an operation
stands (it runs or has committed) it either is a holder of its key or was let in at least one
TTL ago; that is what keeps two operations apart.

Two things take a holder away too early. `release` deletes whatever entry the key has, and
`rollback_group_member` whatever reservation carries the member's name, so a slow body that
fails can remove the reservation of a later operation. And the timestamp of a group is that of
its first member, so the entry expires less than one TTL after a late member joined. The
results are about runs in which neither happens (`InTime`).
-/

namespace TradingFleet.Lock

open TradingFleet.Text TradingFleet.Keyed TradingFleet.Runs

/-! ## Holders -/

def Entry.holders (e : Entry) : List Nat :=
  match e.group with
  | none => [e.number]
  | some g => g.members.map Member.number

/-- The operations whose reservation is in the file. -/
def State.holders (s : State) (key : String) : List Nat :=
  match s key with
  | none => []
  | some e => e.holders

/-- Distinct members of one group. -/
def Operation.siblings (a b : Operation) : Bool :=
  match a.kind, b.kind with
  | .member g na, .member g' nb => g = g' && upper na ≠ upper nb
  | _, _ => false

/-- What the rollback of `o` does not tell from its own reservation. -/
def Operation.confuses (o o' : Operation) : Bool :=
  match o.kind, o'.kind with
  | .slot, _ => true
  | .member g n, .member g' n' => g = g' && upper n = upper n'
  | .member _ _, .slot => false

/-! ## In time -/

/-- A reservation is not granted over an expired group entry while a member that joined it
less than one TTL ago still stands. -/
def World.lapsed (w : World) (ttl : ℚ) (key : String) (now : ℚ) : Bool :=
  match w.state key with
  | none => true
  | some last =>
      last.active ttl now ||
        match last.group with
        | none => true
        | some g =>
            w.ops.all (fun o =>
              !(o.stands && g.members.any (fun m => m.number = o.number)) || o.time + ttl ≤ now)

/-- A body that fails leaves before a later operation took its key: for a slot, any that still
stands; for a group member, one of the same name that still runs. -/
def World.undisturbed (w : World) (o : Operation) : Bool :=
  w.ops.all (fun o' =>
    !(o'.key = o.key && o.number < o'.number && o.confuses o' &&
      match o.kind with
      | .slot => o'.stands
      | .member _ _ => o'.status = .running))

/-- The clock does not go back, no group entry lapses under a late member, and no rollback
comes after a later reservation. -/
def World.InTime (ttl : String → ℚ) (w : World) (e : Event) : Bool :=
  match e with
  | .enterSlot key now _ _ => w.clock ≤ now && w.lapsed (ttl key) key now
  | .enterGroupSlot key _ _ now _ _ => w.clock ≤ now && w.lapsed (ttl key) key now
  | .commit _ _ => true
  | .leave number =>
      w.ops.all (fun o => !(o.number = number && o.status = .running) || w.undisturbed o)

def World.Next (ttl : String → ℚ) (w : World) (e : Event) (w' : World) : Prop :=
  w.InTime ttl e = true ∧ w' = w.step ttl e

abbrev World.Reachable (ttl : String → ℚ) : World → Prop :=
  Reach (fun w => ∃ clock, w = World.empty clock) (World.Next ttl)

/-! ## The invariant -/

/-- The entry's reservations were made by operations on its key. -/
def Entry.Backed (ops : List Operation) (key : String) (e : Entry) : Prop :=
  match e.group with
  | none => ∃ o ∈ ops, o.number = e.number ∧ o.key = key ∧ o.kind = .slot ∧ o.time = e.timestamp
  | some g =>
      (g.members.map Member.name).Nodup ∧
        ∀ m ∈ g.members, ∃ o ∈ ops, o.number = m.number ∧ o.key = key ∧
          (∃ name, o.kind = .member g.id name ∧ upper name = m.name) ∧
          (o.status = .committed → m.name ∈ g.committed)

structure Inv (ttl : String → ℚ) (w : World) : Prop where
  sorted : w.ops.Pairwise (fun a b => b.number < a.number)
  bounded : ∀ o ∈ w.ops, o.number < w.ops.length
  past : ∀ o ∈ w.ops, o.time ≤ w.clock
  backed : ∀ key e, w.state key = some e → e.Backed w.ops key
  /-- a holder is newer than what could be confused with it -/
  newest : ∀ o ∈ w.ops, ∀ o' ∈ w.ops, o'.key = o.key → o'.number ∈ w.state.holders o.key →
    o.confuses o' = true → o.number ≤ o'.number
  placed : ∀ o ∈ w.ops, o.stands = true →
    o.number ∈ w.state.holders o.key ∨ o.time + ttl o.key ≤ w.clock
  spaced : ∀ a ∈ w.ops, ∀ b ∈ w.ops, b.number < a.number → a.key = b.key → a.stands = true →
    b.stands = true → ttl a.key ≤ a.time - b.time ∨ a.siblings b = true

theorem eq_of_number {ops : List Operation} (h : ops.Pairwise (fun a b => b.number < a.number))
    {a b : Operation} (ha : a ∈ ops) (hb : b ∈ ops) (hn : a.number = b.number) : a = b := by
  have hnodup : (ops.map Operation.number).Nodup := by
    rw [List.Nodup, List.pairwise_map]
    exact h.imp (fun hlt heq => by omega)
  exact eq_of_key_eq hnodup ha hb hn

/-! ## What the sections do -/

/-- How an attempt to enter ends: blocked, let in with a new entry where none was active, or
let in as a further member of the active group. -/
inductive Admission (ttl : ℚ) (key : String) (kind : Kind) (now : ℚ) (number : Nat) (s : State) :
    (Bool × Entry) × State → Prop
  | blocked {e : Entry} : Admission ttl key kind now number s ((false, e), s)
  | renewed {e : Entry} (hfree : ∀ last, s key = some last → last.active ttl now = false)
      (hholds : e.holders = [number])
      (hbacked : e.Backed [⟨number, key, kind, now, .running⟩] key) :
      Admission ttl key kind now number s ((true, e), Function.update s key (some e))
  | joined {last : Entry} {g : Group} {name : String} (hlast : s key = some last)
      (hgroup : last.group = some g) (hkind : kind = .member g.id name)
      (hnew : ∀ m ∈ g.members, m.name ≠ upper name) :
      Admission ttl key kind now number s
        ((true, { last with group := some (g.join (upper name) number) }),
          Function.update s key (some { last with group := some (g.join (upper name) number) }))

theorem reserve_admission (ttl : ℚ) (key : String) (now : ℚ) (writer : Writer) (extra : Fields)
    (number : Nat) (s : State) :
    Admission ttl key .slot now number s (reserve key ttl now writer extra number s) := by
  unfold reserve
  simp only
  split
  · rename_i hnone
    refine .renewed (fun last hl => ?_) rfl ⟨_, List.mem_singleton_self _, rfl, rfl, rfl, rfl⟩
    rw [hnone] at hl
    cases hl
  · rename_i last hlast
    by_cases ha : last.active ttl now = true
    · rw [if_pos ha]
      exact .blocked
    · rw [if_neg ha]
      refine .renewed (fun last' hl => ?_) rfl ⟨_, List.mem_singleton_self _, rfl, rfl, rfl, rfl⟩
      rw [hlast, Option.some.injEq] at hl
      rw [← hl]
      exact Bool.not_eq_true _ ▸ ha

theorem reserveGroupMember_admission (ttl : ℚ) (key groupId name : String) (now : ℚ)
    (writer : Writer) (extra : Fields) (number : Nat) (s : State) :
    Admission ttl key (.member groupId name) now number s
      (reserveGroupMember key ttl groupId name now writer extra number s) := by
  have hbacked : ∀ e : Entry,
      e.group = some ⟨groupId, [⟨upper name, number⟩], [upper name], [], []⟩ →
      e.Backed [⟨number, key, .member groupId name, now, .running⟩] key := by
    intro e he
    unfold Entry.Backed
    rw [he]
    refine ⟨by simp, ?_⟩
    intro m hm
    rw [List.mem_singleton] at hm
    subst hm
    exact ⟨_, List.mem_singleton_self _, rfl, rfl, ⟨name, rfl, rfl⟩, nofun⟩
  unfold reserveGroupMember
  simp only
  split
  · rename_i hnone
    refine .renewed (fun last hl => ?_) rfl (hbacked _ rfl)
    rw [hnone] at hl
    cases hl
  · rename_i last hlast
    by_cases ha : last.active ttl now = true
    · rw [if_pos ha]
      split
      · exact .blocked
      · rename_i g hg
        by_cases hid : g.id ≠ groupId
        · rw [if_pos hid]
          exact .blocked
        · rw [if_neg hid]
          by_cases hmem : g.members.any (fun m => m.name = upper name) = true
          · rw [if_pos hmem]
            exact .blocked
          · rw [if_neg hmem]
            refine .joined hlast hg (by rw [not_not.mp hid]) ?_
            intro m hm heq
            exact hmem (List.any_eq_true.mpr ⟨m, hm, by simpa using heq⟩)
    · rw [if_neg ha]
      refine .renewed (fun last' hl => ?_) rfl (hbacked _ rfl)
      rw [hlast, Option.some.injEq] at hl
      rw [← hl]
      exact Bool.not_eq_true _ ▸ ha

@[simp] theorem holders_update (s : State) (key key' : String) (e : Option Entry) :
    State.holders (Function.update s key e) key' =
      if key' = key then (match e with | none => [] | some e => e.holders) else s.holders key' := by
  unfold State.holders
  by_cases hk : key' = key
  · subst hk
    simp only [Function.update_self, if_true]
  · simp only [Function.update_of_ne hk, if_neg hk]

theorem holders_of_some {s : State} {key : String} {e : Entry} (h : s key = some e) :
    s.holders key = e.holders := by
  unfold State.holders
  rw [h]

theorem entry_of_holder {s : State} {key : String} {n : Nat} (h : n ∈ s.holders key) :
    ∃ e, s key = some e ∧ n ∈ e.holders := by
  unfold State.holders at h
  cases he : s key with
  | none => rw [he] at h; cases h
  | some e => rw [he] at h; exact ⟨e, rfl, h⟩

theorem Entry.Backed.mono {e : Entry} {ops ops' : List Operation} {key : String}
    (h : e.Backed ops key) (hsub : ∀ o ∈ ops, o ∈ ops') : e.Backed ops' key := by
  unfold Entry.Backed at h ⊢
  cases hg : e.group with
  | none =>
      rw [hg] at h
      obtain ⟨o, ho, hrest⟩ := h
      exact ⟨o, hsub o ho, hrest⟩
  | some g =>
      rw [hg] at h
      refine ⟨h.1, fun m hm => ?_⟩
      obtain ⟨o, ho, hrest⟩ := h.2 m hm
      exact ⟨o, hsub o ho, hrest⟩

theorem Entry.Backed.slot {e : Entry} {ops : List Operation} {key : String}
    (h : e.Backed ops key) (hg : e.group = none) :
    ∃ o ∈ ops, o.number = e.number ∧ o.key = key ∧ o.kind = .slot ∧ o.time = e.timestamp := by
  unfold Entry.Backed at h
  rw [hg] at h
  exact h

theorem Entry.Backed.members {e : Entry} {ops : List Operation} {key : String} {g : Group}
    (h : e.Backed ops key) (hg : e.group = some g) :
    (g.members.map Member.name).Nodup ∧
      ∀ m ∈ g.members, ∃ o ∈ ops, o.number = m.number ∧ o.key = key ∧
        (∃ name, o.kind = .member g.id name ∧ upper name = m.name) ∧
        (o.status = .committed → m.name ∈ g.committed) := by
  unfold Entry.Backed at h
  rw [hg] at h
  exact h

theorem Entry.Backed.of_members {e : Entry} {ops : List Operation} {key : String} {g : Group}
    (hg : e.group = some g) (hn : (g.members.map Member.name).Nodup)
    (hm : ∀ m ∈ g.members, ∃ o ∈ ops, o.number = m.number ∧ o.key = key ∧
        (∃ name, o.kind = .member g.id name ∧ upper name = m.name) ∧
        (o.status = .committed → m.name ∈ g.committed)) : e.Backed ops key := by
  unfold Entry.Backed
  rw [hg]
  exact ⟨hn, hm⟩

theorem confuses_of_siblings {a b : Operation} (h : a.siblings b = true) :
    a.confuses b = false := by
  unfold Operation.siblings at h
  unfold Operation.confuses
  split at h
  · rename_i hka hkb
    rw [hka, hkb]
    simp only [Bool.and_eq_true, decide_eq_true_eq] at h
    simp [h.2]
  · cases h

/-! ## Entering -/

section Enter

variable {ttl : String → ℚ} {w : World} (h : Inv ttl w) {key : String} {kind : Kind} {now : ℚ}
  (hclock : w.clock ≤ now)
include h hclock

/-- Where the last entry is not active, whatever stands was let in one TTL ago. -/
theorem Inv.standing_lapsed (hlapsed : w.lapsed (ttl key) key now = true)
    (hfree : ∀ last, w.state key = some last → last.active (ttl key) now = false)
    {o : Operation} (ho : o ∈ w.ops) (hk : o.key = key) (hs : o.stands = true) :
    o.time + ttl key ≤ now := by
  rcases h.placed o ho hs with hin | hpast
  · rw [hk] at hin
    obtain ⟨last, hlast, hmem⟩ := entry_of_holder hin
    have hb := h.backed key last hlast
    have hinactive := hfree last hlast
    cases hg : last.group with
    | none =>
        -- an exclusive entry carries the time of its one operation
        obtain ⟨o₁, ho₁, hn, -, -, ht⟩ := hb.slot hg
        have hnum : o.number = o₁.number := by
          rw [Entry.holders, hg, List.mem_singleton] at hmem
          rw [hmem, hn]
        have heq : o = o₁ := eq_of_number h.sorted ho ho₁ hnum
        have hle : ttl key ≤ now - last.timestamp := by
          simpa [Entry.active] using hinactive
        rw [heq, ht]
        linarith
    | some g =>
        rw [Entry.holders, hg] at hmem
        obtain ⟨m, hm, hmn⟩ := List.mem_map.mp hmem
        unfold World.lapsed at hlapsed
        simp only [hlast, hinactive, hg, Bool.false_or, List.all_eq_true] at hlapsed
        have hany : g.members.any (fun m => m.number = o.number) = true :=
          List.any_eq_true.mpr ⟨m, hm, by simpa using hmn⟩
        simpa [hs, hany] using hlapsed o ho
  · rw [hk] at hpast
    exact le_trans hpast hclock

/-- The parts of the invariant that do not depend on how the operation was let in. -/
theorem Inv.enter_order :
    ((⟨w.ops.length, key, kind, now, .running⟩ : Operation) :: w.ops).Pairwise
        (fun a b => b.number < a.number) ∧
      (∀ o ∈ (⟨w.ops.length, key, kind, now, .running⟩ : Operation) :: w.ops,
        o.number < w.ops.length + 1 ∧ o.time ≤ now) := by
  refine ⟨List.pairwise_cons.mpr ⟨fun o ho => h.bounded o ho, h.sorted⟩, ?_⟩
  intro o ho
  rcases List.mem_cons.mp ho with rfl | ho
  · exact ⟨by simp, le_refl _⟩
  · exact ⟨Nat.lt_succ_of_lt (h.bounded o ho), le_trans (h.past o ho) hclock⟩

omit hclock in
/-- The new entry is backed, and the entries of the other keys stay. -/
theorem Inv.enter_backed {e : Entry} {o : Operation} (hb : e.Backed (o :: w.ops) key) :
    ∀ key' e', Function.update w.state key (some e) key' = some e' →
      e'.Backed (o :: w.ops) key' := by
  intro key' e' he
  by_cases hk : key' = key
  · subst hk
    rw [Function.update_self, Option.some.injEq] at he
    exact he ▸ hb
  · rw [Function.update_of_ne hk] at he
    exact (h.backed key' e' he).mono (fun o ho => List.mem_cons_of_mem _ ho)

theorem Inv.renewed (hlapsed : w.lapsed (ttl key) key now = true) {e : Entry}
    (hfree : ∀ last, w.state key = some last → last.active (ttl key) now = false)
    (hholds : e.holders = [w.ops.length])
    (hbacked : e.Backed [⟨w.ops.length, key, kind, now, .running⟩] key) :
    Inv ttl (w.enter key kind now ((true, e), Function.update w.state key (some e))) where
  sorted := (h.enter_order hclock).1
  bounded := fun o ho => ((h.enter_order hclock).2 o ho).1
  past := fun o ho => ((h.enter_order hclock).2 o ho).2
  backed := by
    refine h.enter_backed (hbacked.mono (fun o ho => ?_))
    rw [List.mem_singleton.mp ho]
    exact List.mem_cons_self
  newest := by
    intro o ho o' ho' hkey hheld hconf
    simp only [World.enter, holders_update] at hheld
    by_cases hk : o.key = key
    · rw [if_pos hk, hholds, List.mem_singleton] at hheld
      rw [hheld]
      exact Nat.lt_succ_iff.mp ((h.enter_order hclock).2 o ho).1
    · rw [if_neg hk] at hheld
      -- another key is as it was
      have hold : ∀ x ∈ (⟨w.ops.length, key, kind, now, .running⟩ : Operation) :: w.ops,
          x.key = o.key → x ∈ w.ops := by
        intro x hx hxk
        rcases List.mem_cons.mp hx with rfl | hx
        · exact absurd hxk.symm hk
        · exact hx
      exact h.newest o (hold o ho rfl) o' (hold o' ho' hkey) hkey hheld hconf
  placed := by
    intro o ho hs
    simp only [World.enter, holders_update]
    rcases List.mem_cons.mp ho with rfl | ho
    · left
      rw [if_pos rfl, hholds]
      exact List.mem_singleton_self _
    · by_cases hk : o.key = key
      · right
        rw [hk]
        exact h.standing_lapsed hclock hlapsed hfree ho hk hs
      · rw [if_neg hk]
        exact (h.placed o ho hs).imp_right (fun hp => le_trans hp hclock)
  spaced := by
    intro a ha b hb hlt hkey hsa hsb
    rcases List.mem_cons.mp ha with rfl | ha
    · rcases List.mem_cons.mp hb with rfl | hb
      · exact absurd hlt (lt_irrefl _)
      · left
        -- the key is free, so whoever stands on it is past its time
        have := h.standing_lapsed hclock hlapsed hfree hb hkey.symm hsb
        show ttl key ≤ now - b.time
        linarith
    · rcases List.mem_cons.mp hb with rfl | hb
      · exact absurd (h.bounded a ha) (by have : w.ops.length < a.number := hlt; omega)
      · exact h.spaced a ha b hb hlt hkey hsa hsb

omit h hclock in
/-- Joining adds one holder. -/
theorem joined_holders {last : Entry} {g : Group} {name : String} {n : Nat} {key' : String}
    (hlast : w.state key = some last) (hgroup : last.group = some g) :
    n ∈ (w.enter key kind now
      ((true, { last with group := some (g.join (upper name) w.ops.length) }),
        Function.update w.state key
          (some { last with group := some (g.join (upper name) w.ops.length) }))).state.holders key' ↔
      n ∈ w.state.holders key' ∨ (key' = key ∧ n = w.ops.length) := by
  simp only [World.enter, holders_update]
  by_cases hk : key' = key
  · subst hk
    rw [if_pos rfl, holders_of_some hlast, Entry.holders, Entry.holders, hgroup]
    simp [Group.join]
  · simp [hk]

omit hclock in
/-- A holder of the group's entry has another name than the newcomer. -/
theorem Inv.sibling_of_holder {last : Entry} {g : Group} {name : String} {n : Nat}
    (hlast : w.state key = some last) (hgroup : last.group = some g)
    (hkind : kind = .member g.id name) (hnew : ∀ m ∈ g.members, m.name ≠ upper name)
    {o : Operation} (ho : o ∈ w.ops) (hheld : o.number ∈ w.state.holders key) :
    Operation.siblings ⟨n, key, kind, now, .running⟩ o = true := by
  rw [holders_of_some hlast, Entry.holders, hgroup] at hheld
  obtain ⟨m, hm, hmn⟩ := List.mem_map.mp hheld
  obtain ⟨o₁, ho₁, hn₁, -, ⟨name₁, hkind₁, hname₁⟩, -⟩ :=
    ((h.backed key last hlast).members hgroup).2 m hm
  have heq : o = o₁ := eq_of_number h.sorted ho ho₁ (by rw [hn₁, hmn])
  simp only [Operation.siblings, heq, hkind₁, hkind]
  simpa [hname₁] using (hnew m hm).symm

theorem Inv.joined {last : Entry} {g : Group} {name : String} (hlast : w.state key = some last)
    (hgroup : last.group = some g) (hkind : kind = .member g.id name)
    (hnew : ∀ m ∈ g.members, m.name ≠ upper name) :
    Inv ttl (w.enter key kind now
      ((true, { last with group := some (g.join (upper name) w.ops.length) }),
        Function.update w.state key
          (some { last with group := some (g.join (upper name) w.ops.length) }))) where
  sorted := (h.enter_order hclock).1
  bounded := fun o ho => ((h.enter_order hclock).2 o ho).1
  past := fun o ho => ((h.enter_order hclock).2 o ho).2
  backed := by
    obtain ⟨hnames, hmembers⟩ := (h.backed _ last hlast).members hgroup
    -- the group has one more member, under a name that was free
    refine h.enter_backed (Entry.Backed.of_members rfl ?_ ?_)
    · simp only [Group.join, List.map_append, List.map_singleton]
      refine List.Nodup.append hnames (List.nodup_singleton _) ?_
      intro n hn hn'
      obtain ⟨m, hm, hmn⟩ := List.mem_map.mp hn
      exact hnew m hm (hmn.trans (List.mem_singleton.mp hn'))
    · intro m hm
      rcases List.mem_append.mp hm with hm | hm
      · obtain ⟨o, ho, hrest⟩ := hmembers m hm
        exact ⟨o, List.mem_cons_of_mem _ ho, hrest⟩
      · rw [List.mem_singleton.mp hm]
        exact ⟨_, List.mem_cons_self, rfl, rfl, ⟨name, hkind, rfl⟩, nofun⟩
  newest := by
    intro o ho o' ho' hkey hheld hconf
    rcases List.mem_cons.mp ho' with rfl | ho'
    · exact Nat.lt_succ_iff.mp ((h.enter_order hclock).2 o ho).1
    · have hheld' : o'.number ∈ w.state.holders o.key := by
        rw [joined_holders hlast hgroup] at hheld
        rcases hheld with hold | ⟨-, hnum⟩
        · exact hold
        · exact absurd (h.bounded o' ho') (by omega)
      rcases List.mem_cons.mp ho with rfl | ho
      · -- the newcomer has a name that no holder has
        rw [confuses_of_siblings (h.sibling_of_holder hlast hgroup hkind hnew ho' hheld')] at hconf
        cases hconf
      · exact h.newest o ho o' ho' hkey hheld' hconf
  placed := by
    intro o ho hs
    rw [joined_holders hlast hgroup]
    rcases List.mem_cons.mp ho with rfl | ho
    · exact Or.inl (Or.inr ⟨rfl, rfl⟩)
    · rcases h.placed o ho hs with hin | hpast
      · exact Or.inl (Or.inl hin)
      · exact Or.inr (le_trans hpast hclock)
  spaced := by
    intro a ha b hb hlt hkey hsa hsb
    rcases List.mem_cons.mp ha with rfl | ha
    · rcases List.mem_cons.mp hb with rfl | hb
      · exact absurd hlt (lt_irrefl _)
      · rcases h.placed b hb hsb with hin | hpast
        · right
          rw [← hkey] at hin
          exact h.sibling_of_holder hlast hgroup hkind hnew hb hin
        · left
          rw [← hkey] at hpast
          show ttl key ≤ now - b.time
          have hle : b.time + ttl key ≤ w.clock := hpast
          linarith
    · rcases List.mem_cons.mp hb with rfl | hb
      · exact absurd (h.bounded a ha) (by have : w.ops.length < a.number := hlt; omega)
      · exact h.spaced a ha b hb hlt hkey hsa hsb

end Enter

/-- Entering keeps the invariant, however it ends. -/
theorem Inv.enter {ttl : String → ℚ} {w : World} (h : Inv ttl w) {key : String} {kind : Kind}
    {now : ℚ} {r : (Bool × Entry) × State}
    (hadm : Admission (ttl key) key kind now w.ops.length w.state r) (hclock : w.clock ≤ now)
    (hlapsed : w.lapsed (ttl key) key now = true) : Inv ttl (w.enter key kind now r) := by
  cases hadm with
  | blocked =>
      exact ⟨h.sorted, h.bounded, fun o ho => le_trans (h.past o ho) hclock, h.backed, h.newest,
        fun o ho hs => (h.placed o ho hs).imp_right (fun hp => le_trans hp hclock), h.spaced⟩
  | renewed hfree hholds hbacked => exact h.renewed hclock hlapsed hfree hholds hbacked
  | joined hlast hgroup hkind hnew => exact h.joined hclock hlast hgroup hkind hnew

/-! ## Committing and leaving -/

/-- The entry lost nothing but members. -/
structure Entry.Within (e' e : Entry) : Prop where
  timestamp : e'.timestamp = e.timestamp
  number : e'.number = e.number
  group : (e'.group = none ∧ e.group = none) ∨
    ∃ g' g, e'.group = some g' ∧ e.group = some g ∧ g'.id = g.id ∧
      g'.members.Sublist g.members ∧ ∀ n ∈ g.committed, n ∈ g'.committed

theorem Entry.Within.refl (e : Entry) : e.Within e where
  timestamp := rfl
  number := rfl
  group := by
    cases hg : e.group with
    | none => exact Or.inl ⟨rfl, rfl⟩
    | some g => exact Or.inr ⟨g, g, rfl, rfl, rfl, List.Sublist.refl _, fun _ hn => hn⟩

theorem Entry.Within.holders {e' e : Entry} (h : e'.Within e) {n : Nat} (hn : n ∈ e'.holders) :
    n ∈ e.holders := by
  unfold Entry.holders at hn ⊢
  rcases h.group with ⟨hg', hg⟩ | ⟨g', g, hg', hg, -, hsub, -⟩
  · rw [hg'] at hn
    rw [hg, ← h.number]
    exact hn
  · rw [hg'] at hn
    rw [hg]
    exact (hsub.map _).subset hn

/-- Every entry of `s'` is one of `s`, less members. -/
def State.Within (s' s : State) : Prop :=
  ∀ key e', s' key = some e' → ∃ e, s key = some e ∧ e'.Within e

theorem State.Within.refl (s : State) : s.Within s := fun _ e he => ⟨e, he, Entry.Within.refl e⟩

theorem State.Within.holders {s' s : State} (h : s'.Within s) {key : String} {n : Nat}
    (hn : n ∈ s'.holders key) : n ∈ s.holders key := by
  obtain ⟨e', he', hmem⟩ := entry_of_holder hn
  obtain ⟨e, he, hwithin⟩ := h key e' he'
  rw [holders_of_some he]
  exact hwithin.holders hmem

/-- Changing one entry. -/
theorem State.Within.update {s : State} {key : String} {e : Entry} (he : s key = some e)
    {new : Option Entry} (hnew : ∀ e', new = some e' → e'.Within e) :
    State.Within (Function.update s key new) s := by
  intro key' e' he'
  by_cases hk : key' = key
  · subst hk
    rw [Function.update_self] at he'
    exact ⟨e, he, hnew e' he'⟩
  · rw [Function.update_of_ne hk] at he'
    exact ⟨e', he', Entry.Within.refl e'⟩

theorem confirm_within {e : Entry} {g : Group} (hg : e.group = some g) (name : String)
    (fields extra : Fields) :
    Entry.Within { e with group := some (g.confirm name fields), extra := extra } e where
  timestamp := rfl
  number := rfl
  group := by
    refine Or.inr ⟨_, g, rfl, hg, rfl, List.Sublist.refl _, ?_⟩
    intro n hn
    unfold Group.confirm
    simp only
    split
    · exact hn
    · exact List.mem_append_left _ hn

theorem extra_within (e : Entry) (extra : Fields) : Entry.Within { e with extra := extra } e where
  timestamp := rfl
  number := rfl
  group := (Entry.Within.refl e).group

theorem drop_within {e : Entry} {g : Group} (hg : e.group = some g) (name : String) :
    Entry.Within { e with group := some (g.drop name) } e where
  timestamp := rfl
  number := rfl
  group := Or.inr ⟨_, g, rfl, hg, rfl, List.filter_sublist, fun _ hn => hn⟩

theorem commit_within (o : Operation) (fields : Fields) (s : State) :
    (o.commit fields s).Within s := by
  unfold Operation.commit
  split
  · split
    · exact State.Within.refl s
    · unfold update
      split
      · exact State.Within.refl s
      · rename_i e he
        refine State.Within.update he (fun e' he' => ?_)
        rw [Option.some.injEq] at he'
        exact he' ▸ extra_within e _
  · unfold commitGroupMember
    split
    · exact State.Within.refl s
    · rename_i e he
      split
      · exact State.Within.refl s
      · rename_i g hg
        split
        · exact State.Within.refl s
        · refine State.Within.update he (fun e' he' => ?_)
          rw [Option.some.injEq] at he'
          exact he' ▸ confirm_within hg _ _ _

theorem rollback_within (o : Operation) (s : State) : (o.rollback s).Within s := by
  unfold Operation.rollback
  split
  · unfold release
    split
    · rename_i hsome
      obtain ⟨e, he⟩ := Option.isSome_iff_exists.mp hsome
      exact State.Within.update he nofun
    · exact State.Within.refl s
  · unfold rollbackGroupMember
    simp only
    split
    · exact State.Within.refl s
    · rename_i e he
      split
      · exact State.Within.refl s
      · rename_i g hg
        split
        · exact State.Within.refl s
        · split
          · exact State.Within.refl s
          · split
            · exact State.Within.update he nofun
            · refine State.Within.update he (fun e' he' => ?_)
              rw [Option.some.injEq] at he'
              exact he' ▸ drop_within hg _

/-- A commit leaves every holder in place. -/
theorem commit_holders (o : Operation) (fields : Fields) (s : State) (key : String) :
    (o.commit fields s).holders key = s.holders key := by
  have hset : ∀ (k : String) (e e' : Entry), s k = some e → e'.holders = e.holders →
      State.holders (Function.update s k (some e')) key = s.holders key := by
    intro k e e' he hh
    rw [holders_update]
    by_cases hk : key = k
    · subst hk
      rw [if_pos rfl, holders_of_some he]
      exact hh
    · rw [if_neg hk]
  unfold Operation.commit
  split
  · split
    · rfl
    · unfold update
      split
      · rfl
      · rename_i e he
        exact hset _ e _ he rfl
  · unfold commitGroupMember
    split
    · rfl
    · rename_i e he
      split
      · rfl
      · rename_i g hg
        split
        · rfl
        · refine hset _ e _ he ?_
          simp only [Entry.holders, hg, Group.confirm]

/-- The confirmed member is on the list. -/
theorem commit_confirms {o : Operation} {gid name : String} (hkind : o.kind = .member gid name)
    (fields : Fields) {s : State} {e : Entry} {g' : Group}
    (he : o.commit fields s o.key = some e) (hg : e.group = some g') (hid : g'.id = gid) :
    upper name ∈ g'.committed := by
  simp only [Operation.commit, hkind, commitGroupMember] at he
  cases he₀ : s o.key with
  | none =>
      simp only [he₀] at he
      cases he
  | some e₀ =>
      simp only [he₀] at he
      cases hg₀ : e₀.group with
      | none =>
          simp only [hg₀, he₀, Option.some.injEq] at he
          rw [← he, hg₀] at hg
          cases hg
      | some g₀ =>
          simp only [hg₀] at he
          by_cases hne : g₀.id ≠ gid
          · rw [if_pos hne, he₀, Option.some.injEq] at he
            rw [← he, hg₀, Option.some.injEq] at hg
            exact absurd (hg ▸ hid) hne
          · rw [if_neg hne, Function.update_self, Option.some.injEq] at he
            rw [← he, Option.some.injEq] at hg
            rw [← hg]
            unfold Group.confirm
            simp only
            split
            · assumption
            · exact List.mem_append_right _ (List.mem_singleton_self _)

/-- What a marked operation was before. -/
theorem mem_mark {w : World} {n : Nat} {st : Status} {o : Operation} (h : o ∈ w.mark n st) :
    ∃ o₀ ∈ w.ops, o.number = o₀.number ∧ o.key = o₀.key ∧ o.kind = o₀.kind ∧ o.time = o₀.time ∧
      ((o₀.number = n ∧ o.status = st) ∨ (o₀.number ≠ n ∧ o.status = o₀.status)) := by
  unfold World.mark at h
  obtain ⟨o₀, ho₀, rfl⟩ := List.mem_map.mp h
  refine ⟨o₀, ho₀, ?_⟩
  by_cases hn : o₀.number = n
  · rw [if_pos hn]
    exact ⟨rfl, rfl, rfl, rfl, Or.inl ⟨hn, rfl⟩⟩
  · rw [if_neg hn]
    exact ⟨rfl, rfl, rfl, rfl, Or.inr ⟨hn, rfl⟩⟩

theorem mark_mem {w : World} (n : Nat) (st : Status) {o₀ : Operation} (h : o₀ ∈ w.ops) :
    ∃ o ∈ w.mark n st, o.number = o₀.number ∧ o.key = o₀.key ∧ o.kind = o₀.kind ∧
      o.time = o₀.time ∧ (o.status = .committed → o₀.status = .committed ∨
        (o₀.number = n ∧ st = .committed)) := by
  refine ⟨_, List.mem_map_of_mem h, ?_⟩
  by_cases hn : o₀.number = n
  · rw [if_pos hn]
    exact ⟨rfl, rfl, rfl, rfl, fun hst => Or.inr ⟨hn, hst⟩⟩
  · rw [if_neg hn]
    exact ⟨rfl, rfl, rfl, rfl, Or.inl⟩

/-- Entries stay backed when one operation is marked: what it confirms is on the list. -/
theorem Entry.Backed.mark {w : World} {n : Nat} {st : Status} {key : String} {e e' : Entry}
    (h : e.Backed w.ops key) (hw : e'.Within e)
    (hst : ∀ g', e'.group = some g' → ∀ m ∈ g'.members, m.number = n → st = .committed →
      m.name ∈ g'.committed) : e'.Backed (w.mark n st) key := by
  rcases hw.group with ⟨hg', hg⟩ | ⟨g', g, hg', hg, hid, hsub, hcomm⟩
  · obtain ⟨o₀, ho₀, hnum, hkey, hkind, htime⟩ := h.slot hg
    obtain ⟨o, ho, hn, hk, hkd, ht, -⟩ := mark_mem n st ho₀
    unfold Entry.Backed
    rw [hg']
    exact ⟨o, ho, hn.trans (hnum.trans hw.number.symm), hk.trans hkey, hkd.trans hkind,
      ht.trans (htime.trans hw.timestamp.symm)⟩
  · obtain ⟨hnames, hmembers⟩ := h.members hg
    refine Entry.Backed.of_members hg' (hnames.sublist (hsub.map _)) (fun m hm => ?_)
    obtain ⟨o₀, ho₀, hnum, hkey, ⟨name, hkind, hname⟩, hc⟩ := hmembers m (hsub.subset hm)
    obtain ⟨o, ho, hn, hk, hkd, -, hcommitted⟩ := mark_mem n st ho₀
    refine ⟨o, ho, hn.trans hnum, hk.trans hkey, ⟨name, ?_, hname⟩, fun hstat => ?_⟩
    · rw [hkd, hkind, hid]
    · rcases hcommitted hstat with hold | ⟨hn₀, hst'⟩
      · exact hcomm _ (hc hold)
      · exact hst g' hg' m hm (hnum.symm.trans hn₀) hst'

/-- Marking one standing operation keeps the invariant, if every other one that stands keeps
its place. -/
theorem Inv.mark {ttl : String → ℚ} {w : World} (h : Inv ttl w) {n : Nat} {st : Status} {s' : State}
    (hstood : ∀ o ∈ w.ops, o.number = n → o.stands = true) (hwithin : s'.Within w.state)
    (hkeep : ∀ o ∈ w.ops, o.stands = true → (o.number = n → st ≠ .withdrawn) →
      o.number ∈ w.state.holders o.key → o.number ∈ s'.holders o.key)
    (hbacked : ∀ key e, s' key = some e → e.Backed (w.mark n st) key) :
    Inv ttl { w with state := s', ops := w.mark n st } := by
  -- an operation that stands afterwards stood before
  have hbefore : ∀ {o o₀ : Operation}, o₀ ∈ w.ops → o.stands = true →
      ((o₀.number = n ∧ o.status = st) ∨ (o₀.number ≠ n ∧ o.status = o₀.status)) →
      o₀.stands = true ∧ (o₀.number = n → st ≠ .withdrawn) := by
    intro o o₀ ho₀ hs hcase
    unfold Operation.stands at hs
    rcases hcase with ⟨hn, hst⟩ | ⟨hn, hst⟩
    · refine ⟨hstood o₀ ho₀ hn, fun _ => ?_⟩
      rw [← hst]
      simpa using hs
    · refine ⟨?_, fun hn' => absurd hn' hn⟩
      unfold Operation.stands
      rw [← hst]
      exact hs
  refine ⟨?_, ?_, ?_, hbacked, ?_, ?_, ?_⟩
  · show (w.ops.map _).Pairwise _
    rw [List.pairwise_map]
    refine h.sorted.imp (fun {a b} hlt => ?_)
    split_ifs <;> exact hlt
  · intro o ho
    obtain ⟨o₀, ho₀, hn, -⟩ := mem_mark ho
    show o.number < (w.mark n st).length
    rw [hn, World.mark, List.length_map]
    exact h.bounded o₀ ho₀
  · intro o ho
    obtain ⟨o₀, ho₀, -, -, -, ht, -⟩ := mem_mark ho
    rw [ht]
    exact h.past o₀ ho₀
  · intro o ho o' ho' hkey hheld hconf
    obtain ⟨o₀, ho₀, hn, hk, hkd, -⟩ := mem_mark ho
    obtain ⟨o₀', ho₀', hn', hk', hkd', -⟩ := mem_mark ho'
    have hconf₀ : o₀.confuses o₀' = true := by
      unfold Operation.confuses at hconf ⊢
      rw [← hkd, ← hkd']
      exact hconf
    rw [hn, hn']
    -- numbers and keys are as before, so the order of the holders is too
    refine h.newest o₀ ho₀ o₀' ho₀' (by rw [← hk, ← hk', hkey]) ?_ hconf₀
    rw [← hk, ← hn']
    exact hwithin.holders hheld
  · intro o ho hs
    obtain ⟨o₀, ho₀, hn, hk, -, ht, hcase⟩ := mem_mark ho
    obtain ⟨hs₀, hst⟩ := hbefore ho₀ hs hcase
    rw [hn, hk, ht]
    exact (h.placed o₀ ho₀ hs₀).imp_left (hkeep o₀ ho₀ hs₀ hst)
  · intro a ha b hb hlt hkey hsa hsb
    obtain ⟨a₀, ha₀, hna, hka, hkda, hta, hca⟩ := mem_mark ha
    obtain ⟨b₀, hb₀, hnb, hkb, hkdb, htb, hcb⟩ := mem_mark hb
    have hsp := h.spaced a₀ ha₀ b₀ hb₀ (by rw [← hna, ← hnb]; exact hlt)
      (by rw [← hka, ← hkb]; exact hkey) (hbefore ha₀ hsa hca).1 (hbefore hb₀ hsb hcb).1
    unfold Operation.siblings at hsp ⊢
    rw [hka, hta, htb, hkda, hkdb]
    exact hsp

theorem Inv.commit {ttl : String → ℚ} {w : World} (h : Inv ttl w) {o : Operation} (ho : o ∈ w.ops)
    (hs : o.stands = true) (fields : Fields) :
    Inv ttl { w with state := o.commit fields w.state, ops := w.mark o.number .committed } := by
  refine h.mark ?_ (commit_within o fields w.state) ?_ ?_
  · intro o' ho' hn
    rw [eq_of_number h.sorted ho' ho hn]
    exact hs
  · intro o' _ _ _ hheld
    rw [commit_holders]
    exact hheld
  · intro key e' he'
    obtain ⟨e, he, hw⟩ := commit_within o fields w.state key e' he'
    refine (h.backed key e he).mark hw ?_
    intro g' hg' m hm hn _
    -- the member is the operation's own, so it was just confirmed
    rcases hw.group with ⟨hnone, -⟩ | ⟨g'', g, hg'', hg, hid, hsub, -⟩
    · rw [hnone] at hg'
      cases hg'
    · rw [hg', Option.some.injEq] at hg''
      subst hg''
      obtain ⟨o₁, ho₁, hn₁, hk₁, ⟨name, hkind, hname⟩, -⟩ :=
        ((h.backed key e he).members hg).2 m (hsub.subset hm)
      have heq : o₁ = o := eq_of_number h.sorted ho₁ ho (hn₁.trans hn)
      rw [heq] at hkind hk₁
      rw [← hname]
      rw [← hk₁] at he'
      exact commit_confirms hkind fields he' hg' hid

/-- Who loses its place at a rollback: for a slot, whoever holds the key; for a member,
whoever holds its name uncommitted. -/
theorem rollback_loses (o : Operation) (s : State) {key : String} {n : Nat}
    (hn : n ∈ s.holders key) :
    n ∈ (o.rollback s).holders key ∨
      (key = o.key ∧ (o.kind = .slot ∨
        ∃ name g e m, o.kind = .member g.id name ∧ s key = some e ∧ e.group = some g ∧
          upper name ∉ g.committed ∧ m ∈ g.members ∧ m.number = n ∧ m.name = upper name)) := by
  by_cases hk : key = o.key
  · unfold Operation.rollback
    -- a slot deletes the key, a member drops its own name unless it was committed
    cases hkind : o.kind with
    | slot => exact Or.inr ⟨hk, Or.inl rfl⟩
    | member gid name =>
        obtain ⟨e, he, hmem⟩ := entry_of_holder hn
        rw [hk] at he hn
        simp only [rollbackGroupMember, he]
        cases hg : e.group with
        | none => exact Or.inl (hk ▸ hn)
        | some g =>
            simp only
            by_cases hid : g.id ≠ gid
            · rw [if_pos hid]
              exact Or.inl (hk ▸ hn)
            · rw [if_neg hid]
              by_cases hc : upper name ∈ g.committed
              · rw [if_pos hc]
                exact Or.inl (hk ▸ hn)
              · rw [if_neg hc]
                rw [Entry.holders, hg] at hmem
                obtain ⟨m, hm, hmn⟩ := List.mem_map.mp hmem
                by_cases hname : m.name = upper name
                · refine Or.inr ⟨hk, Or.inr ⟨name, g, e, m, ?_, hk ▸ he, hg, hc, hm, hmn, hname⟩⟩
                  rw [not_not.mp hid]
                · -- another name stays, so the entry is not deleted
                  have hstay : m ∈ (g.drop (upper name)).members :=
                    List.mem_filter.mpr ⟨hm, by simpa using hname⟩
                  rw [if_neg (List.ne_nil_of_mem hstay), hk]
                  left
                  rw [holders_update, if_pos rfl]
                  exact List.mem_map.mpr ⟨m, hstay, hmn⟩
  · left
    -- a rollback writes one key only
    have hother : ∀ new, n ∈ State.holders (Function.update s o.key new) key := by
      intro new
      rw [holders_update, if_neg hk]
      exact hn
    unfold Operation.rollback
    split
    · unfold release
      split
      · exact hother none
      · exact hn
    · unfold rollbackGroupMember
      simp only
      split
      · exact hn
      · split
        · exact hn
        · split
          · exact hn
          · split
            · exact hn
            · split
              · exact hother none
              · exact hother _

/-- **A rollback in time takes away only its own reservation.** -/
theorem Inv.rollback_keeps {ttl : String → ℚ} {w : World} (h : Inv ttl w) {o o' : Operation}
    (ho : o ∈ w.ops) (hund : w.undisturbed o = true) (ho' : o' ∈ w.ops) (hs : o'.stands = true)
    (hne : o'.number ≠ o.number) (hheld : o'.number ∈ w.state.holders o'.key) :
    o'.number ∈ (o.rollback w.state).holders o'.key := by
  rcases rollback_loses o w.state hheld with hkept | ⟨hk, hlost⟩
  · exact hkept
  · exfalso
    rw [hk] at hheld
    have hu := List.all_eq_true.mp hund o' ho'
    rcases hlost with hslot | ⟨name, g, e, m, hkind, he, hg, hc, hm, hmn, hname⟩
    · have hconf : o.confuses o' = true := by simp [Operation.confuses, hslot]
      have hle := h.newest o ho o' ho' hk hheld hconf
      have hlt : o.number < o'.number := by omega
      simp [hk, hlt, hconf, hslot, hs] at hu
    · obtain ⟨o₁, ho₁, hn₁, -, ⟨name₁, hkind₁, hname₁⟩, hcomm⟩ :=
        ((h.backed o'.key e he).members hg).2 m hm
      have heq : o₁ = o' := eq_of_number h.sorted ho₁ ho' (hn₁.trans hmn)
      rw [heq] at hkind₁ hcomm
      have hconf : o.confuses o' = true := by
        simp [Operation.confuses, hkind, hkind₁, hname₁, hname]
      have hle := h.newest o ho o' ho' hk hheld hconf
      have hlt : o.number < o'.number := by omega
      have hrun : o'.status = .running := by
        cases hst : o'.status with
        | running => rfl
        | committed => exact absurd (hname ▸ hcomm hst) hc
        | withdrawn => simp [Operation.stands, hst] at hs
      simp [hk, hlt, hconf, hkind, hrun] at hu

theorem Inv.leave {ttl : String → ℚ} {w : World} (h : Inv ttl w) {o : Operation} (ho : o ∈ w.ops)
    (hrun : o.status = .running) (hund : w.undisturbed o = true) :
    Inv ttl { w with state := o.rollback w.state, ops := w.mark o.number .withdrawn } := by
  refine h.mark ?_ (rollback_within o w.state) ?_ ?_
  · intro o' ho' hn
    rw [eq_of_number h.sorted ho' ho hn]
    simp [Operation.stands, hrun]
  · intro o' ho' hs hn hheld
    exact h.rollback_keeps ho hund ho' hs (fun heq => hn heq rfl) hheld
  · intro key e' he'
    obtain ⟨e, he, hw⟩ := rollback_within o w.state key e' he'
    exact (h.backed key e he).mark hw (fun _ _ _ _ _ hst => by cases hst)

/-! ## Runs -/

/-- What `find?` gives: an operation of that number. -/
theorem find_number {w : World} {n : Nat} {p : Operation → Bool} {o : Operation}
    (h : w.ops.find? (fun o => o.number = n && p o) = some o) :
    o ∈ w.ops ∧ o.number = n ∧ p o = true := by
  have hp := List.find?_some h
  simp only [Bool.and_eq_true, decide_eq_true_eq] at hp
  exact ⟨List.mem_of_find?_eq_some h, hp.1, hp.2⟩

theorem Inv.step {ttl : String → ℚ} {w w' : World} {e : Event} (h : Inv ttl w)
    (hnext : World.Next ttl w e w') : Inv ttl w' := by
  obtain ⟨htime, rfl⟩ := hnext
  cases e with
  | enterSlot key now writer extra =>
      simp only [World.InTime, Bool.and_eq_true, decide_eq_true_eq] at htime
      exact h.enter (reserve_admission _ _ _ _ _ _ _) htime.1 htime.2
  | enterGroupSlot key groupId member now writer extra =>
      simp only [World.InTime, Bool.and_eq_true, decide_eq_true_eq] at htime
      exact h.enter (reserveGroupMember_admission _ _ _ _ _ _ _ _ _) htime.1 htime.2
  | commit number fields =>
      unfold World.step
      simp only
      split
      · exact h
      · rename_i o ho
        obtain ⟨hmem, rfl, hs⟩ := find_number ho
        exact h.commit hmem hs fields
  | leave number =>
      unfold World.step
      simp only
      split
      · exact h
      · rename_i o ho
        obtain ⟨hmem, rfl, hrun⟩ := find_number ho
        have hund := List.all_eq_true.mp htime o hmem
        rw [decide_eq_true_eq] at hrun
        exact h.leave hmem hrun (by simpa [hrun] using hund)

theorem World.Reachable.inv {ttl : String → ℚ} {w : World} (h : w.Reachable ttl) : Inv ttl w := by
  refine Reach.invariant ?_ (fun w e w' hw hnext => hw.step hnext) h
  rintro w ⟨clock, rfl⟩
  exact ⟨List.Pairwise.nil, nofun, nofun, nofun, nofun, nofun, nofun⟩

/-! ## The main result -/

/-- Two committed operations on one key are one TTL apart, or distinct members of one group. -/
def World.Spaced (ttl : String → ℚ) (w : World) : Prop :=
  ∀ a ∈ w.ops, ∀ b ∈ w.ops, a.number ≠ b.number → a.key = b.key → a.status = .committed →
    b.status = .committed → ttl a.key ≤ |a.time - b.time| ∨ a.siblings b = true

/-- The exit of operation `n` leaves the reservations of all others that stand in place. -/
def World.ExitKeeps (w : World) (n : Nat) (w' : World) : Prop :=
  ∀ o ∈ w.ops, o.number ≠ n → o.stands = true → o.number ∈ w.state.holders o.key →
    o.number ∈ w'.state.holders o.key

theorem siblings_comm (a b : Operation) : a.siblings b = b.siblings a := by
  unfold Operation.siblings
  cases a.kind with
  | slot => cases b.kind <;> rfl
  | member g na =>
      cases b.kind with
      | slot => rfl
      | member g' nb =>
          simp only [eq_comm (a := g), ne_eq, eq_comm (a := upper na)]

/-- **One operation per key within the TTL.** In every run in time, committed operations are
spaced, and every exit leaves the reservations of the others in place. -/
theorem spaced_and_own_of_in_time {ttl : String → ℚ} {w : World} (h : w.Reachable ttl) :
    w.Spaced ttl ∧
      ∀ n, w.InTime ttl (.leave n) = true → w.ExitKeeps n (w.step ttl (.leave n)) := by
  have hinv := h.inv
  constructor
  · intro a ha b hb hne hkey hca hcb
    have hsa : a.stands = true := by simp [Operation.stands, hca]
    have hsb : b.stands = true := by simp [Operation.stands, hcb]
    -- the invariant speaks of the later and the earlier one, in that order
    rcases Nat.lt_or_gt_of_ne hne with hlt | hlt
    · rcases hinv.spaced b hb a ha hlt hkey.symm hsb hsa with hge | hsib
      · left
        rw [hkey, abs_sub_comm]
        exact le_trans hge (le_abs_self _)
      · right
        rw [siblings_comm]
        exact hsib
    · rcases hinv.spaced a ha b hb hlt hkey hsa hsb with hge | hsib
      · exact Or.inl (le_trans hge (le_abs_self _))
      · exact Or.inr hsib
  · intro n htime o' ho' hne hs hheld
    unfold World.step
    simp only
    split
    · exact hheld
    -- only an operation that is running rolls back
    · rename_i o ho
      obtain ⟨hmem, rfl, hrun⟩ := find_number ho
      have hund := List.all_eq_true.mp htime o hmem
      rw [decide_eq_true_eq] at hrun
      exact hinv.rollback_keeps hmem (by simpa [hrun] using hund) ho' hs hne hheld

/-! ## A pair in time, and two runs that are not -/

def World.run (ttl : String → ℚ) (w : World) (events : List Event) : World :=
  events.foldl (World.step ttl) w

/-- Events that are each in time when they happen. -/
def World.runInTime (ttl : String → ℚ) : World → List Event → Bool
  | _, [] => true
  | w, e :: rest => w.InTime ttl e && World.runInTime ttl (w.step ttl e) rest

theorem reachable_of_runInTime {ttl : String → ℚ} (events : List Event) {w : World}
    (h : w.Reachable ttl) (hin : w.runInTime ttl events = true) :
    (w.run ttl events).Reachable ttl := by
  induction events generalizing w with
  | nil => exact h
  | cons e rest ih =>
      simp only [World.runInTime, Bool.and_eq_true] at hin
      exact ih (Reach.step (i := e) h ⟨hin.1, rfl⟩) hin.2

def sampleTtl : String → ℚ := fun _ => 20

def sampleWriter : Writer := ⟨7, 1, "MainProcess", "host"⟩

/-- Both legs of a pair, an outsider that is blocked, one that fails and one that commits. -/
def pairRun : List Event :=
  [.enterGroupSlot "TAOUSDC" "pair-1" "BUY" 100 sampleWriter [],
    .enterGroupSlot "TAOUSDC" "pair-1" "SELL" 105 sampleWriter [],
    .commit 0 [("binance_order_id", some "101")], .commit 1 [("binance_order_id", some "102")],
    .enterSlot "TAOUSDC" 110 sampleWriter [],
    .enterSlot "TAOUSDC" 130 sampleWriter [], .leave 2,
    .enterSlot "TAOUSDC" 131 sampleWriter [], .commit 3 []]

theorem pairRun_spaced :
    ((World.empty 0).run sampleTtl pairRun).ops.map Operation.time = [131, 130, 105, 100] ∧
      ((World.empty 0).run sampleTtl pairRun).Spaced sampleTtl := by
  refine ⟨by decide +kernel, ?_⟩
  exact (spaced_and_own_of_in_time (reachable_of_runInTime pairRun (Reach.start ⟨0, rfl⟩)
    (by decide +kernel))).1

/-- A body outlives its TTL and fails after a second operation has committed: its release
deletes the second one's reservation, and a third operation gets in. -/
def slowFailure : List Event :=
  [.enterSlot "TAOUSDC" 0 sampleWriter [], .enterSlot "TAOUSDC" 25 sampleWriter [], .commit 1 []]

/-- The second member joins just before the entry of the first expires. -/
def lateMember : List Event :=
  [.enterGroupSlot "TAOUSDC" "pair-1" "BUY" 0 sampleWriter [], .commit 0 [],
    .enterGroupSlot "TAOUSDC" "pair-1" "SELL" 19 sampleWriter [], .commit 1 [],
    .enterSlot "TAOUSDC" 20 sampleWriter [], .commit 2 []]

theorem slow_failure_and_late_member_not_spaced :
    ¬ World.ExitKeeps ((World.empty 0).run sampleTtl slowFailure) 0
        (((World.empty 0).run sampleTtl slowFailure).step sampleTtl (.leave 0)) ∧
    ¬ ((World.empty 0).run sampleTtl
        (slowFailure ++ [.leave 0, .enterSlot "TAOUSDC" 30 sampleWriter [], .commit 2 []])).Spaced
          sampleTtl ∧
    ¬ ((World.empty 0).run sampleTtl lateMember).Spaced sampleTtl := by
  refine ⟨?_, ?_, ?_⟩
  · intro h
    have hlost := h ⟨1, "TAOUSDC", .slot, 25, .committed⟩ (by decide +kernel) (by decide) rfl
      (by decide +kernel)
    exact absurd hlost (by decide +kernel)
  · intro h
    have hapart := h ⟨2, "TAOUSDC", .slot, 30, .committed⟩ (by decide +kernel)
      ⟨1, "TAOUSDC", .slot, 25, .committed⟩ (by decide +kernel) (by decide) rfl rfl rfl
    exact absurd hapart (by decide +kernel)
  · intro h
    have hapart := h ⟨2, "TAOUSDC", .slot, 20, .committed⟩ (by decide +kernel)
      ⟨1, "TAOUSDC", .member "pair-1" "SELL", 19, .committed⟩ (by decide +kernel) (by decide)
      rfl rfl rfl
    exact absurd hapart (by decide +kernel)

end TradingFleet.Lock
