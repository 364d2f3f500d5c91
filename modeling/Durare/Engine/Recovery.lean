import Durare.Engine.RowSteps
import Durare.Engine.Staged

/-!
# Engine/Recovery — how often a workflow is re-dispatched

A sweep counts a recovery before it re-dispatches a row: the backend hands out the values 1, 2, …
and parks the row at the first one past the cap.  Counting and re-dispatching are two calls, and a
sweep acts on the value it was given however long ago that was.

A **period** of a workflow ends when it is resumed, created or deleted.  In a period each
re-dispatch has a value of its own, and the values up to the cap are `m`: together with the sweeps
that have counted and not yet re-dispatched there are never more re-dispatches than the stored
counter shows (`Within`).  A sweep that carries its value over into the next period breaks that, and
one that counted before another sweep parked the row takes it out of its parked state again.

* `sweeping` — a sweep re-dispatches only what it has counted; `accountable_sweep`.
* `sweeps` — any number of sweeps, of any executors with the cap `m`, over a store that everything
  else may change between two of their calls.
-/

namespace Durare.Memory

open List

open Verb

/-! ## What a sweep owes -/

/-- The workflow a sweep has counted a recovery for, within the cap, and not yet re-dispatched. -/
def owe (m : Int) : (e : Eff) → Answer e → Option String → Option String
  | .provider (.bumpRecoveryAttempts id _), .ok n, _ => if n ≤ m then some id else none
  | .provider (.bumpRecoveryAttempts _ _), .error _, _ => none
  | .provider (.setWorkflowStatus _ .enqueued _ _), _, _ => none
  | _, _, owes => owes

/-- A sweep counts against the cap, re-dispatches what it owes, and creates rows at zero. -/
def Counted (m : Int) : Eff → Option String → Prop
  | .provider (.bumpRecoveryAttempts _ max), _ => max = m
  | .provider (.setWorkflowStatus id .enqueued _ _), owes => owes = some id
  | .provider (.insertWorkflowStatus status), _ => status.recoveryAttempts = 0
  | _, _ => True

/-- A sweep as seen from what it owes. -/
def sweeping (m : Int) : Proc.Judge Eff Answer (Option String) where
  handle e owes r owes' := owes' = owe m e r owes
  rely owes owes' := owes' = owes
  guar e owes _ _ := Counted m e owes

/-- The code re-dispatches only what it owes: also an execution begins only so. -/
def Accountable (m : Int) (code : Stages Eff Answer String) (owes : Option String) : Prop :=
  code.wp (sweeping m) (fun name owes => ∀ id, name = some id → owes = some id)
    (fun _ _ => none) owes

theorem Accountable.call {m : Int} {name : Option String} {β : Type} {e : Eff}
    {k : Answer e → Proc Eff Answer β} {K : β → Stages Eff Answer String} {owes : Option String}
    (h : Accountable m (.stage name (.call e k) K) owes) (r : Answer e) :
    Counted m e owes ∧ Accountable m (.stage name (k r) K) (owe m e r owes) :=
  h owes rfl r _ rfl

section

variable {E : Engine} {s : CtxState} {owes : Option String}

theorem wp_takeUp_owes {record : WorkflowStatus} :
    wp (sweeping E.maxRecoveryAttempts) (takeUp E record)
      (fun r _ owes' => r = .ok .run → owes' = some record.id) s owes := by
  refine wp_perform ?_
  rintro owes rfl shutdown _ rfl
  refine ⟨trivial, ?_⟩
  cases shutdown with
  | true => exact fun h => by cases h
  | false =>
    refine wp_ask ?_
    rintro owes rfl attempts _ rfl
    refine ⟨rfl, ?_⟩
    cases attempts with
    | error e => exact fun h => by cases h
    | ok n =>
      rw [after_ok]
      split
      · exact fun h => by cases h
      · next hcap =>
          have howes : owe E.maxRecoveryAttempts (.provider (.bumpRecoveryAttempts record.id
              E.maxRecoveryAttempts)) (.ok n) owes = some record.id := if_pos (not_lt.mp hcap)
          rw [howes]
          split
          · refine wp_ask ?_
            rintro _ rfl r _ rfl
            refine ⟨rfl, ?_⟩
            cases r with
            | error e => exact fun h => by cases h
            | ok _ => exact fun h => by cases h
          · split
            · exact fun _ => rfl
            · exact fun h => by cases h

theorem admitsExecutions_counted (m : Int) (id : String) :
    Eff.AdmitsExecutions id fun e => ∀ owes, Counted m e owes where
  plain e he owes := by
    cases e with
    | provider c => cases c <;> trivial
    | _ => trivial
  newRun e he owes := by
    cases he with
    | insert => rfl
  spawn _ _ _ _ _ _ := trivial
  elapsed _ _ := trivial
  conclude {status _ _} _ hne _ := by
    cases status with
    | enqueued => exact absurd rfl hne
    | _ => trivial
  overdue _ := trivial

variable [Serde DateTime] {X : TextCodec}

theorem accountable_sweep {pending : List WorkflowStatus} : ∀ {s : CtxState} {owes : Option String},
    Accountable E.maxRecoveryAttempts (sweep E (provider X) pending s) owes := by
  have hnext {code : Stages Eff Answer String} {owes : Option String} (hname : code.name = none)
      (h : Accountable E.maxRecoveryAttempts code none) :
      (∀ id, code.name = some id → owes = some id) ∧
        Accountable E.maxRecoveryAttempts code none := by
    rw [hname]
    exact ⟨nofun, h⟩
  induction pending with
  | nil => exact trivial
  | cons record pending ih =>
    intro s owes
    refine Proc.wp_mono ?_ wp_takeUp_owes
    rintro ⟨_ | _ | _ | _, s'⟩ owes' howes
    · exact hnext rfl trivial
    · exact hnext rfl trivial
    · exact hnext (name_sweep pending s') ih
    · dsimp only
      cases E.handler (registryKey record.name record.configName) with
      | none => exact hnext (name_sweep pending s') ih
      | some handler =>
        constructor
        · rintro _ ⟨rfl⟩
          exact howes rfl
        · have hcalls : (runToCompletion (provider X) E.runtime handler record.id record.input
              record.deadlineMs (AuthContext.fromStatus record)).Calls
                fun e => ∀ owes, Counted E.maxRecoveryAttempts e owes :=
            calls_runToCompletion_of (admitsExecutions_counted _ _)
          refine Proc.wp_mono ?_ ((hcalls s').wp (fun e he owes r owes' _ => he owes) none)
          exact fun r _ _ => hnext (name_sweep pending r.2) ih

end

/-! ## Periods -/

/-- What a sweep does to a workflow: it re-dispatches it, or finds it past the cap. -/
inductive Mark where
  | redispatched
  | parked
  deriving DecidableEq

/-- The mark a call of a sweep leaves on `id`. -/
def mark (m : Int) (id : String) : (e : Eff) → Answer e → List Mark
  | .provider (.bumpRecoveryAttempts id' _), .ok n => if id' = id ∧ m < n then [.parked] else []
  | .provider (.setWorkflowStatus id' .enqueued _ _), _ => if id' = id then [.redispatched] else []
  | _, _ => []

/-- A new period of `id` begins: its row is created, deleted or resumed. -/
def NewPeriod (id : String) (e : Eff) (g g' : Inner) : Prop :=
  (g.workflows.lookup id).isSome ≠ (g'.workflows.lookup id).isSome ∨
    ∃ c row, e = .provider c ∧ Resumes id c ∧ g.workflows.lookup id = some row ∧
      resumable row = true

/-- The world, with the current period of the watched workflow and its marks, the last one first. -/
structure Watched where
  world : World Inner
  period : Nat
  marks : List Mark

/-- The row of the watched workflow. -/
def Watched.row (w : Watched) (id : String) : Option WorkflowStatus :=
  w.world.store.workflows.lookup id

/-- The watch over an effect: a new period begins without marks. -/
def Passes (id : String) (e : Eff) (w w' : Watched) : Prop :=
  (NewPeriod id e w.world.store w'.world.store → w'.period = w.period + 1 ∧ w'.marks = []) ∧
    (¬NewPeriod id e w.world.store w'.world.store → w'.period = w.period ∧ w'.marks = w.marks)

/-! ## Sweeps over a store that others change -/

/-- A sweep, and what it owes. -/
structure Sweeper where
  code : Stages Eff Answer String
  owes : Option String

/-- One step of a sweep.  An execution that begins is a re-dispatch. -/
inductive Sweeper.Step (X : TextCodec) (m : Int) (id : String) :
    Sweeper → Watched → Option (Proc.Event Eff Answer (World Inner)) → Sweeper → Watched →
      Prop where
  | call {name : Option String} {β : Type} {e : Eff} {k : Answer e → Proc Eff Answer β}
      {K : β → Stages Eff Answer String} {owes : Option String} {w w' : Watched} {r : Answer e}
      (hr : (provider X).handle e w.world r w'.world) (hpass : Passes id e w w') :
      Sweeper.Step X m id ⟨.stage name (.call e k) K, owes⟩ w (some ⟨e, w.world, r, w'.world⟩)
        ⟨.stage name (k r) K, owe m e r owes⟩ { w' with marks := mark m id e r ++ w'.marks }
  | unfold {name : Option String} {β σ γ : Type} {body : σ → Proc Eff Answer (σ ⊕ γ)} {s : σ}
      {k : γ → Proc Eff Answer β} {K : β → Stages Eff Answer String} {owes : Option String}
      {w : Watched} :
      Sweeper.Step X m id ⟨.stage name (.iter body s k) K, owes⟩ w none
        ⟨.stage name ((body s).bind (Proc.again body k)) K, owes⟩ w
  | next {name : Option String} {β : Type} {b : β} {K : β → Stages Eff Answer String}
      {owes : Option String} {w : Watched} :
      Sweeper.Step X m id ⟨.stage name (.ret b) K, owes⟩ w none ⟨K b, none⟩
        { w with marks := if (K b).name = some id then .redispatched :: w.marks else w.marks }

/-- A call that others make: counting is done by sweeps alone, and a row is created at zero. -/
def Other : ProviderCall → Prop
  | .bumpRecoveryAttempts _ _ => False
  | .insertWorkflowStatus status => status.recoveryAttempts = 0
  | _ => True

/-- **Any number of sweeps** with the cap `m`, of any engines and for any executors, over a store in
which others start, claim, finish, cancel, resume and delete workflows as they like. -/
def sweeps [Serde DateTime] (X : TextCodec) (m : Int) (id : String) :
    Threads Sweeper Watched (Option (Proc.Event Eff Answer (World Inner))) where
  step t w e t' w' new := Sweeper.Step X m id t w e t' w' ∧ new = []
  start _ t := ∃ (E : Engine) (executorIds : List String), E.maxRecoveryAttempts = m ∧
    t = ⟨(Request.recoverPendingWorkflows executorIds).stages (provider X) E, none⟩
  env w w' := (Tick w.world w'.world ∧ w'.period = w.period ∧ w'.marks = w.marks) ∨
    ∃ c uuid, Other c ∧ w'.world = ⟨(call c w.world.clock uuid w.world.store).2, w.world.clock⟩ ∧
      Passes id (.provider c) w w'

/-- The sweeps that have counted a recovery of `id` and not yet re-dispatched it. -/
def owing (id : String) (ts : List Sweeper) : Nat := ts.countP fun t => t.owes = some id

/-- A workflow is created, resumed or parked only while no sweep owes it a re-dispatch. -/
def Undisturbed (id : String) (a b : Pool Sweeper Watched) : Prop :=
  (b.world.period ≠ a.world.period ∧ (b.world.row id).isSome) ∨
    b.world.marks = .parked :: a.world.marks → owing id a.threads = 0

/-! ## The counter and the re-dispatches -/

/-- With `owed` re-dispatches to come, the period is within its counter and within the cap; a parked
row is owed nothing and was not re-dispatched since. -/
def Within (m : Int) (owed : Nat) (marks : List Mark) (x : Option WorkflowStatus) : Prop :=
  ∀ row, x = some row → (marks.count .redispatched + owed : Int) ≤ row.recoveryAttempts ∧
    (marks.count .redispatched + owed : Int) ≤ m ∧
    (.parked ∈ marks → m < row.recoveryAttempts ∧ owed = 0) ∧
    ∀ newer older, marks = newer ++ .parked :: older → .redispatched ∉ newer

variable {now : DateTime} {row : WorkflowStatus}

section

variable {m : Int} {owed : Nat} {marks : List Mark} {x : Option WorkflowStatus}

theorem Within.fewer (h : Within m owed marks x) {owed' : Nat} (hle : owed' ≤ owed) :
    Within m owed' marks x := by
  intro row hrow
  obtain ⟨hcounter, hcap, hparked, horder⟩ := h row hrow
  refine ⟨by omega, by omega, fun hp => ⟨(hparked hp).1, ?_⟩, horder⟩
  have := (hparked hp).2
  omega

theorem Within.of_counter (h : Within m owed marks x) {x' : Option WorkflowStatus}
    (hx : ∀ row', x' = some row' → ∃ row, x = some row ∧
      row.recoveryAttempts = row'.recoveryAttempts) : Within m owed marks x' := by
  intro row' hrow'
  obtain ⟨row, hrow, hsame⟩ := hx row' hrow'
  rw [← hsame]
  exact h row hrow

theorem Within.begin (hm : 0 ≤ m) (hx : ∀ row, x = some row → 0 ≤ row.recoveryAttempts) :
    Within m 0 [] x := by
  intro row hrow
  have hzero := hx row hrow
  refine ⟨by simpa using hzero, by simpa using hm, ?_, fun newer older h => ?_⟩
  · exact fun h => absurd h not_mem_nil
  · simp at h

theorem Within.redispatch (h : Within m (owed + 1) marks x) :
    Within m owed (.redispatched :: marks) x := by
  intro row hrow
  obtain ⟨hcounter, hcap, hparked, horder⟩ := h row hrow
  have hnot : .parked ∉ marks := fun hp => by
    have := (hparked hp).2
    omega
  have hnone : .parked ∉ Mark.redispatched :: marks := by simp [hnot]
  refine ⟨?_, ?_, fun hp => absurd hp hnone, fun newer older heq => ?_⟩
  · rw [count_cons_self]
    push_cast
    omega
  · rw [count_cons_self]
    push_cast
    omega
  · exact absurd (by simp [heq]) hnone

@[simp] theorem bumpRow_recoveryAttempts {max : Int} :
    (bumpRow now max row).recoveryAttempts = row.recoveryAttempts + 1 := by
  simp only [bumpRow]
  split <;> rfl

theorem Within.count (h : Within m owed marks (some row)) (hcap : row.recoveryAttempts + 1 ≤ m) :
    Within m (owed + 1) marks (some (bumpRow now m row)) := by
  rintro _ ⟨rfl⟩
  obtain ⟨hcounter, -, hparked, horder⟩ := h row rfl
  have hnot : .parked ∉ marks := fun hp => by
    have := (hparked hp).1
    omega
  rw [bumpRow_recoveryAttempts]
  exact ⟨by push_cast; omega, by push_cast; omega, fun hp => absurd hp hnot, horder⟩

theorem Within.park (h : Within m 0 marks (some row)) (hcap : m < row.recoveryAttempts + 1) :
    Within m 0 (.parked :: marks) (some (bumpRow now m row)) := by
  rintro _ ⟨rfl⟩
  obtain ⟨hcounter, hbelow, -, horder⟩ := h row rfl
  have hcount : (Mark.parked :: marks).count .redispatched = marks.count .redispatched :=
    count_cons_of_ne (by decide)
  rw [bumpRow_recoveryAttempts, hcount]
  refine ⟨by omega, hbelow, fun _ => ⟨hcap, rfl⟩, fun newer older heq => ?_⟩
  cases newer with
  | nil => exact not_mem_nil
  | cons first newer =>
    obtain ⟨rfl, hrest⟩ := List.cons.inj heq
    simpa using horder newer older hrest

/-! ## What a call does to the counter -/

variable {id : String}

/-- A call other than a count leaves the counter alone, or begins a period at zero. -/
theorem counter_after {g : Inner} {c : ProviderCall} {uuid : String} {row' : WorkflowStatus}
    (hg : WellKeyed g) (hc : Other c)
    (hrow' : (call c now uuid g).2.workflows.lookup id = some row') :
    NewPeriod id (.provider c) g (call c now uuid g).2 ∧ row'.recoveryAttempts = 0 ∨
      ¬NewPeriod id (.provider c) g (call c now uuid g).2 ∧ ∃ row, g.workflows.lookup id =
        some row ∧ row.recoveryAttempts = row'.recoveryAttempts := by
  have htouch : Touch now id c (g.workflows.lookup id) _ := touch hg c uuid
  rw [hrow'] at htouch
  by_cases hnew : NewPeriod id (.provider c) g (call c now uuid g).2
  · refine .inl ⟨hnew, ?_⟩
    obtain hpresence | ⟨_, row, ⟨rfl⟩, hres, hrow, hresumable⟩ := hnew
    · have hnone : g.workflows.lookup id = none := by
        simpa [hrow'] using hpresence
      rw [hnone] at htouch
      cases htouch with
      | create => exact hc
    · rw [lookup_of_resumes hres hrow hresumable] at hrow'
      cases hrow'
      rfl
  · refine .inr ⟨hnew, ?_⟩
    generalize hx : g.workflows.lookup id = x at htouch
    cases htouch with
    | keep => exact ⟨row', rfl, rfl⟩
    | create => exact absurd (.inl (by simp [hx, hrow'])) hnew
    | @resume _ row hres hresumable => exact absurd (.inr ⟨c, row, rfl, hres, hx, hresumable⟩) hnew
    | bump => exact hc.elim
    | @cancel _ row _ hlive => exact ⟨row, rfl, by simp [cancelRow, hlive]⟩
    | @write row | @enqueue row | @claim row | @promote row => exact ⟨row, rfl, rfl⟩

/-- Effects other than a count keep a period within its bounds. -/
theorem Within.passes {X : TextCodec} {w w' : Watched} {e : Eff} {r : Answer e} (hm : 0 ≤ m)
    (hg : WellKeyed w.world.store) (h : Within m owed w.marks (w.row id))
    (hr : (provider X).handle e w.world r w'.world) (hother : ∀ c, e = .provider c → Other c)
    (hpass : Passes id e w w')
    (hfree : w'.period ≠ w.period ∧ (w'.row id).isSome → owed = 0) :
    Within m owed w'.marks (w'.row id) := by
  obtain ⟨hsame, hnot⟩ | ⟨c, uuid, rfl, hw'⟩ := handle_cases hr
  · have hstill : ¬NewPeriod id e w.world.store w'.world.store := by
      rw [hsame]
      rintro (hne | ⟨c, _, rfl, -⟩)
      · exact hne rfl
      · exact hnot c rfl
    rw [(hpass.2 hstill).2, Watched.row, hsame]
    exact h
  · have hafter {row' : WorkflowStatus} (hrow' : w'.row id = some row') :
        NewPeriod id (.provider c) w.world.store w'.world.store ∧ row'.recoveryAttempts = 0 ∨
          ¬NewPeriod id (.provider c) w.world.store w'.world.store ∧ ∃ row, w.row id = some row ∧
            row.recoveryAttempts = row'.recoveryAttempts := by
      rw [Watched.row, hw'] at hrow'
      rw [hw']
      exact counter_after hg (hother c rfl) hrow'
    by_cases hnew : NewPeriod id (.provider c) w.world.store w'.world.store
    · obtain ⟨hperiod, hmarks⟩ := hpass.1 hnew
      rw [hmarks]
      intro row' hrow'
      obtain rfl : owed = 0 := hfree ⟨by omega, by simp [hrow']⟩
      refine Within.begin hm ?_ row' hrow'
      rintro row₁ hrow₁
      obtain ⟨-, hzero⟩ | ⟨hstill, -⟩ := hafter hrow₁
      · exact hzero.ge
      · exact absurd hnew hstill
    · rw [(hpass.2 hnew).2]
      refine h.of_counter fun row' hrow' => ?_
      obtain ⟨hyes, -⟩ | ⟨-, hrow⟩ := hafter hrow'
      · exact absurd hyes hnew
      · exact hrow

/-- **What a call of a sweep is**: a count, or a call like those of others that marks nothing, or
the re-dispatch of what is owed. -/
theorem counted_cases {e : Eff} {r : Answer e} {owes : Option String} (h : Counted m e owes) :
    (∃ id', e = .provider (.bumpRecoveryAttempts id' m)) ∨ (∀ c, e = .provider c → Other c) ∧
        ((mark m id e r = [] ∧ owe m e r owes = owes) ∨
          ∃ id', owes = some id' ∧ owe m e r owes = none ∧
            mark m id e r = if id' = id then [.redispatched] else []) := by
  cases e with
  | provider c =>
    cases c with
    | bumpRecoveryAttempts id' max =>
      obtain rfl : max = m := h
      exact .inl ⟨id', rfl⟩
    | setWorkflowStatus id' status output error =>
      refine .inr ⟨?_, ?_⟩
      · rintro _ ⟨rfl⟩
        trivial
      · cases status with
        | enqueued => exact .inr ⟨id', h, rfl, rfl⟩
        | _ => exact .inl ⟨rfl, rfl⟩
    | insertWorkflowStatus status =>
      refine .inr ⟨?_, .inl ⟨rfl, rfl⟩⟩
      rintro _ ⟨rfl⟩
      exact h
    | _ =>
      refine .inr ⟨?_, .inl ⟨rfl, rfl⟩⟩
      rintro _ ⟨rfl⟩
      trivial
  | _ =>
    refine .inr ⟨?_, .inl ⟨rfl, rfl⟩⟩
    rintro _ ⟨⟩

theorem bumpRecoveryAttempts_cases (now : DateTime) (id : String) (max : Int) (g : Inner) :
    (g.workflows.lookup id = none ∧ bumpRecoveryAttempts now id max g = (.ok 0, g)) ∨
      ∃ row, g.workflows.lookup id = some row ∧
        bumpRecoveryAttempts now id max g = (.ok (row.recoveryAttempts + 1),
          { g with workflows := g.workflows.insert id (bumpRow now max row) }) := by
  unfold bumpRecoveryAttempts
  split
  · next row hrow => exact .inr ⟨row, hrow, rfl⟩
  · next hnone => exact .inl ⟨hnone, rfl⟩

theorem not_newPeriod_bump {g : Inner} {id' : String} {max : Int} :
    ¬NewPeriod id (.provider (.bumpRecoveryAttempts id' max)) g
      (bumpRecoveryAttempts now id' max g).2 := by
  rintro (hne | ⟨_, _, ⟨rfl⟩, hres, -⟩)
  · have htouch : Touch now id (.bumpRecoveryAttempts id' max) (g.workflows.lookup id) _ :=
      touch_bumpRecoveryAttempts id' max
    generalize g.workflows.lookup id = x at htouch hne
    generalize (bumpRecoveryAttempts now id' max g).2.workflows.lookup id = y at htouch hne
    cases htouch with
    | keep => exact hne rfl
    | bump => exact hne rfl
    | cancel hc => exact hc.elim
    | resume hc => exact hc.elim
  · exact hres.elim

/-- **A count** keeps a period within its bounds, if a row is parked only while nothing is owed. -/
theorem Within.counts {X : TextCodec} {w w' : Watched} {id' : String} {owes : Option String}
    {r : Answer (.provider (.bumpRecoveryAttempts id' m))} (h : Within m owed w.marks (w.row id))
    (hr : (provider X).handle (.provider (.bumpRecoveryAttempts id' m)) w.world r w'.world)
    (hpass : Passes id (.provider (.bumpRecoveryAttempts id' m)) w w')
    (hfree : mark m id (.provider (.bumpRecoveryAttempts id' m)) r ++ w'.marks =
      .parked :: w.marks → owed = 0) :
    Within m (owed + if owe m (.provider (.bumpRecoveryAttempts id' m)) r owes = some id then 1
      else 0) (mark m id (.provider (.bumpRecoveryAttempts id' m)) r ++ w'.marks) (w'.row id) := by
  obtain ⟨uuid, hanswer, hw'⟩ := Provider.handle_provider.mp hr
  have hmarks : w'.marks = w.marks := (hpass.2 (by rw [hw']; exact not_newPeriod_bump)).2
  rw [hmarks] at hfree ⊢
  have hcall : (provider X).call (.bumpRecoveryAttempts id' m) w.world.clock uuid w.world.store =
      bumpRecoveryAttempts w.world.clock id' m w.world.store := rfl
  rw [hcall] at hanswer hw'
  rw [Watched.row] at h ⊢
  rw [hw']
  by_cases hid : id' = id
  · subst hid
    obtain ⟨hnone, heq⟩ | ⟨row, hrow, heq⟩ :=
        bumpRecoveryAttempts_cases w.world.clock id' m w.world.store
    · rw [heq]
      intro row hrow
      exact absurd (hrow.symm.trans hnone) (by simp)
    · rw [heq] at hanswer ⊢
      subst hanswer
      rw [AList.lookup_insert]
      rw [hrow] at h
      by_cases hcap : row.recoveryAttempts + 1 ≤ m
      · have hmark : mark m id' (.provider (.bumpRecoveryAttempts id' m))
            (.ok (row.recoveryAttempts + 1)) = [] :=
          if_neg fun hboth => absurd hboth.2 (not_lt.mpr hcap)
        have howe : owe m (.provider (.bumpRecoveryAttempts id' m))
            (.ok (row.recoveryAttempts + 1)) owes = some id' := if_pos hcap
        rw [hmark, howe, if_pos rfl]
        exact h.count hcap
      · have hmark : mark m id' (.provider (.bumpRecoveryAttempts id' m))
            (.ok (row.recoveryAttempts + 1)) = [.parked] := if_pos ⟨rfl, not_le.mp hcap⟩
        have howe : owe m (.provider (.bumpRecoveryAttempts id' m))
            (.ok (row.recoveryAttempts + 1)) owes = none := if_neg hcap
        rw [hmark] at hfree ⊢
        obtain rfl := hfree rfl
        rw [howe, if_neg (by simp)]
        exact h.park (not_le.mp hcap)
  · have hmark : mark m id (.provider (.bumpRecoveryAttempts id' m)) r = [] := by
      cases r with
      | ok n => exact if_neg fun hboth => hid hboth.1
      | error e => rfl
    have howe : owe m (.provider (.bumpRecoveryAttempts id' m)) r owes ≠ some id := by
      cases r with
      | ok n =>
        simp only [owe]
        split
        · exact fun heq => hid (Option.some.inj heq)
        · exact fun heq => by cases heq
      | error e => exact fun heq => by cases heq
    have hsame : (bumpRecoveryAttempts w.world.clock id' m w.world.store).2.workflows.lookup id =
        w.world.store.workflows.lookup id := by
      obtain ⟨-, heq⟩ | ⟨row, -, heq⟩ :=
        bumpRecoveryAttempts_cases w.world.clock id' m w.world.store
      · rw [heq]
      · rw [heq]
        exact AList.lookup_insert_ne (Ne.symm hid)
    rw [hmark, if_neg howe, hsame]
    exact h

end

/-! ## The invariant -/

variable {a : Pool Sweeper Watched}

section

variable [Serde DateTime] {X : TextCodec} {m : Int} {id : String}

/-- The current period is within its bounds, and every sweep re-dispatches only what it owes. -/
structure Bounded (m : Int) (id : String) (c : Pool Sweeper Watched) : Prop where
  keyed : WellKeyed c.world.world.store
  within : Within m (owing id c.threads) c.world.marks (c.world.row id)
  accountable : ∀ t ∈ c.threads, Accountable m t.code t.owes

omit [Serde DateTime] in
theorem owing_split {pre post : List Sweeper} {t : Sweeper} :
    owing id (pre ++ t :: post) = owing id (pre ++ post) + if t.owes = some id then 1 else 0 := by
  simp only [owing, countP_append, countP_cons, decide_eq_true_eq]
  omega

omit [Serde DateTime] in
/-- **One step of a sweep**: it stays accountable, and the period within its bounds. -/
theorem Within.step {t t' : Sweeper} {w w' : Watched}
    {e : Option (Proc.Event Eff Answer (World Inner))} {others : Nat} (hm : 0 ≤ m)
    (hg : WellKeyed w.world.store) (ht : Accountable m t.code t.owes)
    (hstep : Sweeper.Step X m id t w e t' w')
    (h : Within m (others + if t.owes = some id then 1 else 0) w.marks (w.row id))
    (hfree : (w'.period ≠ w.period ∧ (w'.row id).isSome) ∨ w'.marks = .parked :: w.marks →
      others + (if t.owes = some id then 1 else 0) = 0) :
    WellKeyed w'.world.store ∧ Accountable m t'.code t'.owes ∧
      Within m (others + if t'.owes = some id then 1 else 0) w'.marks (w'.row id) := by
  cases hstep with
  | @call name β eff k K owes _ w₁ r hr hpass =>
    obtain ⟨hcounted, hcode⟩ := ht.call r
    refine ⟨wellKeyed_handle hg hr, hcode, ?_⟩
    obtain ⟨id', rfl⟩ | ⟨hother, hmark⟩ := @counted_cases m id eff r owes hcounted
    · refine (h.fewer (Nat.le_add_right _ _)).counts hr hpass fun hparked => ?_
      have := hfree (.inr hparked)
      omega
    · have hpassed : Within m (others + if owes = some id then 1 else 0) w₁.marks (w₁.row id) :=
        h.passes hm hg hr hother hpass fun hnew => hfree (.inl hnew)
      obtain ⟨hnone, hsame⟩ | ⟨id', rfl, hpaid, hdone⟩ := hmark
      · dsimp only
        rw [hnone, hsame]
        exact hpassed
      · dsimp only
        rw [hpaid, hdone]
        by_cases hid : id' = id
        · subst hid
          rw [if_pos rfl] at hpassed ⊢
          exact hpassed.redispatch
        · rw [if_neg hid]
          exact hpassed.fewer (Nat.le_add_right _ _)
  | unfold => exact ⟨hg, (Stages.wp_run (fun _ => rfl) ht .unfold).2, h⟩
  | @next name β b K owes _ =>
    refine ⟨hg, ht.2, ?_⟩
    by_cases hname : (K b).name = some id
    · have howes : owes = some id := ht.1 id hname
      rw [howes, if_pos rfl] at h
      rw [if_pos hname]
      exact h.redispatch
    · dsimp only
      rw [if_neg hname]
      exact h.fewer (Nat.le_add_right _ _)

/-- What others do keeps a period within its bounds. -/
theorem Within.env {w w' : Watched} {owed : Nat} (hm : 0 ≤ m) (hg : WellKeyed w.world.store)
    (h : Within m owed w.marks (w.row id)) (henv : (sweeps X m id).env w w')
    (hfree : w'.period ≠ w.period ∧ (w'.row id).isSome → owed = 0) :
    WellKeyed w'.world.store ∧ Within m owed w'.marks (w'.row id) := by
  obtain ⟨⟨hstore, -⟩, -, hmarks⟩ | ⟨c, uuid, hother, hw', hpass⟩ := henv
  · rw [Watched.row, hmarks, hstore]
    exact ⟨hg, h⟩
  · have hr : (provider X).handle (.provider c) w.world
        (call c w.world.clock uuid w.world.store).1 w'.world :=
      Provider.handle_provider.mpr ⟨uuid, rfl, hw'⟩
    refine ⟨wellKeyed_handle hg hr, h.passes hm hg hr ?_ hpass hfree⟩
    rintro _ ⟨rfl⟩
    exact hother

theorem accountable_request {E : Engine} {executorIds : List String} :
    Accountable E.maxRecoveryAttempts
      ((Request.recoverPendingWorkflows executorIds).stages (provider X) E) none := by
  rintro _ rfl r _ rfl
  refine ⟨trivial, ?_⟩
  cases r with
  | error e => exact ⟨nofun, trivial⟩
  | ok pending =>
    refine ⟨fun id hid => ?_, accountable_sweep⟩
    exact absurd ((name_sweep pending {}).symm.trans hid) (by simp)

/-- **Every step of a run keeps the bounds.** -/
theorem Bounded.step {a b : Pool Sweeper Watched}
    {e : Pool.Happens Sweeper (Option (Proc.Event Eff Answer (World Inner)))} (hm : 0 ≤ m)
    (hs : Pool.Step (sweeps X m id) a e b) (hok : Undisturbed id a b) (h : Bounded m id a) :
    Bounded m id b := by
  obtain ⟨hkeyed, hwithin, haccountable⟩ := h
  cases hs with
  | @run pre post new t t' w w' l hrun =>
    obtain ⟨hstep, rfl⟩ := hrun
    rw [append_nil]
    rw [Undisturbed] at hok
    dsimp only at hok hwithin
    rw [owing_split] at hok hwithin
    obtain ⟨hkeyed', ht', hwithin'⟩ := hwithin.step hm hkeyed (haccountable t (by simp)) hstep hok
    refine ⟨hkeyed', ?_, fun u hu => ?_⟩
    · rw [owing_split]
      exact hwithin'
    · obtain hu | rfl | hu : u ∈ pre ∨ u = t' ∨ u ∈ post := by simpa using hu
      · exact haccountable u (by simp [hu])
      · exact ht'
      · exact haccountable u (by simp [hu])
  | @start ts t w hstart =>
    obtain ⟨E, executorIds, rfl, rfl⟩ := hstart
    refine ⟨hkeyed, ?_, fun u hu => ?_⟩
    · simpa [owing] using hwithin
    · obtain rfl | hu := mem_cons.mp hu
      · exact accountable_request
      · exact haccountable u hu
  | @lose pre post t w =>
    refine ⟨hkeyed, ?_, fun u hu => haccountable u ?_⟩
    · dsimp only at hwithin
      rw [owing_split] at hwithin
      exact hwithin.fewer (Nat.le_add_right _ _)
    · simp only [mem_append, mem_cons] at hu ⊢
      exact hu.imp_right .inr
  | env henv =>
    obtain ⟨hkeyed', hwithin'⟩ := hwithin.env hm hkeyed henv fun hnew => hok (.inl hnew)
    exact ⟨hkeyed', hwithin', haccountable⟩

omit [Serde DateTime] in
theorem parked_of_mark {w w' : Watched} {id' : String}
    {r : Answer (.provider (.bumpRecoveryAttempts id' m))} (hm : 0 ≤ m)
    (hr : (provider X).handle (.provider (.bumpRecoveryAttempts id' m)) w.world r w'.world)
    (hmark : mark m id (.provider (.bumpRecoveryAttempts id' m)) r ≠ []) :
    ∃ row, w'.row id = some row ∧ row.status = .maxRecoveryAttemptsExceeded := by
  obtain ⟨uuid, rfl, hw'⟩ := Provider.handle_provider.mp hr
  have hcall : (provider X).call (.bumpRecoveryAttempts id' m) w.world.clock uuid w.world.store =
      bumpRecoveryAttempts w.world.clock id' m w.world.store := rfl
  rw [hcall] at hmark hw'
  rw [Watched.row, hw']
  obtain ⟨-, heq⟩ | ⟨row, -, heq⟩ := bumpRecoveryAttempts_cases w.world.clock id' m w.world.store
  · rw [heq] at hmark
    exact absurd (if_neg fun hboth => by omega) hmark
  · rw [heq] at hmark ⊢
    by_cases hparks : id' = id ∧ m < row.recoveryAttempts + 1
    · obtain ⟨rfl, hcap⟩ := hparks
      exact ⟨_, AList.lookup_insert _, by simp [bumpRow, hcap]⟩
    · exact absurd (if_neg hparks) hmark

omit [Serde DateTime] in
theorem Passes.not_parked {e : Eff} {w w' : Watched} (h : Passes id e w w') :
    w'.marks ≠ .parked :: w.marks := by
  by_cases hnew : NewPeriod id e w.world.store w'.world.store
  · simp [(h.1 hnew).2]
  · simp [(h.2 hnew).2]

omit [Serde DateTime] in
theorem Sweeper.Step.parked {t t' : Sweeper} {w w' : Watched}
    {e : Option (Proc.Event Eff Answer (World Inner))} (hm : 0 ≤ m)
    (ht : Accountable m t.code t.owes) (hstep : Sweeper.Step X m id t w e t' w')
    (hmarks : w'.marks = .parked :: w.marks) :
    ∃ row, w'.row id = some row ∧ row.status = .maxRecoveryAttemptsExceeded := by
  cases hstep with
  | @call name β eff k K owes _ w₁ r hr hpass =>
    have hmarks : mark m id eff r ++ w₁.marks = .parked :: w.marks := hmarks
    have hmark : mark m id eff r ≠ [] := fun hnone => by
      rw [hnone] at hmarks
      exact hpass.not_parked hmarks
    obtain ⟨id', rfl⟩ | ⟨-, ⟨hnone, -⟩ | ⟨id', -, -, hdone⟩⟩ :=
      @counted_cases m id eff r owes (ht.call r).1
    · exact @parked_of_mark X m id w w₁ id' r hm hr hmark
    · exact absurd hnone hmark
    · rw [hdone] at hmarks hmark
      split at hmarks
      · cases hmarks
      · next hid => exact absurd (if_neg hid) hmark
  | unfold => simp at hmarks
  | next =>
    dsimp only at hmarks
    split at hmarks
    · cases hmarks
    · simp at hmarks

variable {a : Pool Sweeper Watched}
  {ok : Pool Sweeper Watched → Pool.Happens Sweeper (Option (Proc.Event Eff Answer (World Inner))) →
    Pool Sweeper Watched → Prop}
  {w : Watched} {world : World Inner} {ts : List Sweeper} {β : Type} {name owes : Option String}
  {K : β → Stages Eff Answer String}

end

section

/-- An engine that recovers a workflow once. -/
def once : Engine where
  registry := []
  appVersion := ""
  maxRecoveryAttempts := 1

attribute [local instance] serdeNanos

end

end Durare.Memory
