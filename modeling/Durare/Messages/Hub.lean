import Durare.Machinery.Table

/-!
# Messages/Hub — who waits for a notification of the PostgreSQL backend

Waiters on one payload share the `Notify` of its entry, which is made for the first of them and
removed with the last.  A `Notify` is known by its number, and no two have the same.  The lock is
held throughout `subscribe` and `drop`: a history is a sequence of the two.
-/

namespace Durare.Postgres

open List Option

structure WaitEntry where
  notify : Nat
  count : Nat

/-- A subscription that is alive. -/
structure Subscription where
  payload : String
  notify : Nat

/-- The entries, and the next `Notify` to be made. -/
structure NotifyHub where
  waiters : Table String WaitEntry := ∅
  next : Nat := 0

namespace NotifyHub

/-- A live subscription takes memory, so the count stays within a `usize` going up. -/
def subscribe (hub : NotifyHub) (payload : String) : Subscription × NotifyHub :=
  let entry := (hub.waiters.lookup payload).getD ⟨hub.next, 0⟩
  (⟨payload, entry.notify⟩,
    ⟨hub.waiters.insert payload { entry with count := entry.count + 1 }, hub.next + 1⟩)

/-- `count -= 1` on a `usize`. -/
def decrement (count : Nat) : Nat := if count = 0 then 0xffffffffffffffff else count - 1

/-- What dropping a subscription does. -/
def drop (hub : NotifyHub) (sub : Subscription) : NotifyHub :=
  match hub.waiters.lookup sub.payload with
  | none => hub
  | some entry =>
    if decrement entry.count = 0 then { hub with waiters := hub.waiters.erase sub.payload }
    else { hub with waiters :=
      hub.waiters.insert sub.payload { entry with count := decrement entry.count } }

/-- The `Notify` a signal wakes. -/
def signal (hub : NotifyHub) (payload : String) : List Nat :=
  ((hub.waiters.lookup payload).map WaitEntry.notify).toList

def signalAll (hub : NotifyHub) : List Nat := hub.waiters.entries.map fun e => e.2.notify

end NotifyHub

/-! ## Histories -/

inductive HubOp where
  | subscribe (payload : String)
  /-- the `i`-th of the live subscriptions is dropped, if there are so many -/
  | drop (i : Nat)

/-- The hub and the subscriptions that are alive. -/
structure HubState where
  hub : NotifyHub := {}
  live : List Subscription := []

namespace HubState

def step (s : HubState) : HubOp → HubState
  | .subscribe payload => ⟨(s.hub.subscribe payload).2, (s.hub.subscribe payload).1 :: s.live⟩
  | .drop i => match s.live[i]? with
    | some sub => ⟨s.hub.drop sub, s.live.eraseIdx i⟩
    | none => s

def run (ops : List HubOp) : HubState := ops.foldl step {}

/-- The live subscriptions on a payload. -/
def on (s : HubState) (payload : String) : List Subscription :=
  s.live.filter fun sub => sub.payload = payload

/-- **The hub tracks its waiters exactly**, and signals reach them. -/
structure Exact (s : HubState) : Prop where
  entry_iff : ∀ payload, (s.hub.waiters.lookup payload).isSome ↔ ∃ sub ∈ s.live,
    sub.payload = payload
  count_eq : ∀ payload entry, s.hub.waiters.lookup payload = some entry →
    entry.count = (s.on payload).length
  /-- the entry a drop finds does not underflow, and has the `Notify` of the subscription -/
  shared : ∀ sub ∈ s.live, ∃ entry, s.hub.waiters.lookup sub.payload = some entry ∧
    0 < entry.count ∧ sub.notify = entry.notify
  signal : ∀ sub ∈ s.live, sub.notify ∈ s.hub.signal sub.payload
  signalAll : ∀ sub ∈ s.live, sub.notify ∈ s.hub.signalAll

end HubState

/-! ## The entry of one payload -/

/-- The entry of a payload stands for these subscriptions. -/
def Backs : Option WaitEntry → List Subscription → Prop
  | none, subs => subs = []
  | some entry, subs =>
    0 < entry.count ∧ entry.count = subs.length ∧ ∀ sub ∈ subs, sub.notify = entry.notify

section

variable {hub : NotifyHub} {payload p : String} {sub : Subscription} {subs rest : List Subscription}

theorem Backs.perm {entry : Option WaitEntry} (h : Backs entry subs) (hperm : subs.Perm rest) :
    Backs entry rest := by
  cases entry with
  | none =>
    obtain rfl : subs = [] := h
    exact hperm.nil_eq.symm
  | some entry =>
    obtain ⟨hpos, hcount, hshared⟩ := h
    exact ⟨hpos, hcount.trans hperm.length_eq, fun sub hsub => hshared sub (hperm.mem_iff.mpr hsub)⟩

theorem lookup_drop_ne (h : p ≠ sub.payload) :
    (hub.drop sub).waiters.lookup p = hub.waiters.lookup p := by
  rw [NotifyHub.drop]
  split
  · rfl
  · split_ifs
    · exact AList.lookup_erase_ne h
    · exact AList.lookup_insert_ne h

theorem backs_subscribe (h : Backs (hub.waiters.lookup payload) subs) :
    Backs ((hub.subscribe payload).2.waiters.lookup payload)
      ((hub.subscribe payload).1 :: subs) := by
  simp only [NotifyHub.subscribe, AList.lookup_insert]
  generalize hub.waiters.lookup payload = entry at h ⊢
  cases entry with
  | none =>
    obtain rfl : subs = [] := h
    exact ⟨Nat.one_pos, rfl, forall_mem_singleton.mpr rfl⟩
  | some entry =>
    obtain ⟨-, hcount, hshared⟩ := h
    exact ⟨Nat.succ_pos _, congrArg (· + 1) hcount, forall_mem_cons.mpr ⟨rfl, hshared⟩⟩

theorem backs_drop (h : Backs (hub.waiters.lookup sub.payload) (sub :: rest)) :
    Backs ((hub.drop sub).waiters.lookup sub.payload) rest := by
  rw [NotifyHub.drop]
  split
  · next hentry =>
      rw [hentry] at h
      cases h
  · next entry hentry =>
      rw [hentry] at h
      obtain ⟨-, hcount, hshared⟩ := h
      have hdec : NotifyHub.decrement entry.count = rest.length := by
        rw [hcount]
        rfl
      rw [hdec]
      split_ifs with hlast
      · rw [AList.lookup_erase]
        exact length_eq_zero_iff.mp hlast
      · rw [AList.lookup_insert]
        exact ⟨Nat.pos_of_ne_zero hlast, rfl, (forall_mem_cons.mp hshared).2⟩

end

/-! ## Every entry -/

namespace HubState

variable {s : HubState}

theorem mem_on {payload : String} {sub : Subscription} :
    sub ∈ s.on payload ↔ sub ∈ s.live ∧ sub.payload = payload := by simp [on]

/-- **The entries stand for the live subscriptions.** -/
def Tracked (s : HubState) : Prop :=
  ∀ payload, Backs (s.hub.waiters.lookup payload) (s.on payload)

theorem Tracked.entry {sub : Subscription} (h : s.Tracked) (hsub : sub ∈ s.live) :
    ∃ entry, s.hub.waiters.lookup sub.payload = some entry ∧
      0 < entry.count ∧ sub.notify = entry.notify := by
  have hback := h sub.payload
  have hon : sub ∈ s.on sub.payload := mem_on.mpr ⟨hsub, rfl⟩
  cases hentry : s.hub.waiters.lookup sub.payload with
  | none =>
    rw [hentry] at hback
    exact absurd hon (hback ▸ not_mem_nil)
  | some entry =>
    rw [hentry] at hback
    exact ⟨entry, rfl, hback.1, hback.2.2 sub hon⟩

theorem Tracked.exact (h : s.Tracked) : Exact s where
  entry_iff payload := by
    constructor
    · intro hsome
      obtain ⟨entry, hentry⟩ := isSome_iff_exists.mp hsome
      have hback := h payload
      rw [hentry] at hback
      obtain ⟨sub, hsub⟩ := exists_mem_of_length_pos (hback.2.1 ▸ hback.1)
      exact ⟨sub, mem_on.mp hsub⟩
    · rintro ⟨sub, hsub, rfl⟩
      obtain ⟨entry, hentry, -⟩ := h.entry hsub
      exact isSome_of_eq_some hentry
  count_eq payload entry hentry := by
    have hback := h payload
    rw [hentry] at hback
    exact hback.2.1
  shared _ hsub := h.entry hsub
  signal sub hsub := by
    obtain ⟨entry, hentry, -, hnotify⟩ := h.entry hsub
    rw [NotifyHub.signal, hentry, hnotify]
    exact mem_singleton_self _
  signalAll sub hsub := by
    obtain ⟨entry, hentry, -, hnotify⟩ := h.entry hsub
    exact mem_map.mpr ⟨_, AList.mem_lookup_iff.mp hentry, hnotify.symm⟩

theorem tracked_step (h : s.Tracked) (op : HubOp) : (s.step op).Tracked := by
  intro p
  cases op with
  | subscribe payload =>
    rw [on, step]
    by_cases hp : p = payload
    · subst hp
      rw [filter_cons_of_pos (by simp [NotifyHub.subscribe])]
      exact backs_subscribe (h p)
    · have hlookup : (s.hub.subscribe payload).2.waiters.lookup p = s.hub.waiters.lookup p :=
        AList.lookup_insert_ne hp
      rw [filter_cons_of_neg (by simp [NotifyHub.subscribe, Ne.symm hp]), hlookup]
      exact h p
  | drop i =>
    rw [step]
    cases hsub : s.live[i]? with
    | none => exact h p
    | some sub =>
      obtain ⟨hi, rfl⟩ := List.getElem?_eq_some_iff.mp hsub
      have hlive := (getElem_cons_eraseIdx_perm hi).symm.filter fun sub => sub.payload = p
      by_cases hp : p = s.live[i].payload
      · subst hp
        rw [filter_cons_of_pos (by simp)] at hlive
        exact backs_drop ((h _).perm hlive)
      · rw [filter_cons_of_neg (by simp [Ne.symm hp])] at hlive
        rw [lookup_drop_ne hp]
        exact (h p).perm hlive

end HubState

/-- **Whatever was subscribed and dropped, the hub tracks its waiters exactly.** -/
theorem hub_exact (ops : List HubOp) : (HubState.run ops).Exact := by
  have htracked : (HubState.run ops).Tracked :=
    List.foldlRecOn ops HubState.step (fun _ => rfl) fun s hs op _ => HubState.tracked_step hs op
  exact htracked.exact

end Durare.Postgres
