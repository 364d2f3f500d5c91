import Durare.Engine.RowSteps
import Durare.Engine.Staged

/-!
# Engine/Exclusion — one execution of a workflow at a time

A workflow is in the charge of at most one task, or it waits on its queue: that is what keeps a
second execution of it from starting.  A claim takes the charge over from the queue, a start and a
release pass it on.  Only two steps take a charge without looking for who has it: an insert that is
not queued, which takes it also when it finds a live row that is there already, and the snapshot of
a launch, which takes it for every row it lists.

`account` says what one call does to the charges of a workflow, `Exclusive` is the invariant.  Where
those two steps take charge of free workflows only (`Orderly`), no workflow has two executions in
progress; two starts under one id, without a queue, do make two.
-/

namespace Durare.Memory

open List

open Verb

/-! ## Who has a workflow -/

/-- The row waits on its queue. -/
def waits (row : Option WorkflowStatus) : Nat := if row.any (·.status.waits) then 1 else 0

/-- How often a workflow is in somebody's charge, or waits to be. -/
def inCharge (c : Pool Task (World Inner)) (id : String) : Nat :=
  heldBy id c.threads + waits (c.world.store.workflows.lookup id)

/-- The executions of a workflow that are in progress. -/
def executions (c : Pool Task (World Inner)) (id : String) : Nat :=
  c.threads.countP fun t => t.code.inside id

/-- An insert and a listing take charge only of workflows that nobody has and that do not wait. -/
def Orderly (a : Pool Task (World Inner))
    (e : Pool.Happens Task (Option (Proc.Event Eff Answer (World Inner)))) : Prop :=
  ∀ t ev, e = .ran t (some ev) → (∀ req, ev.call ≠ .provider (.dequeueWorkflows req)) →
    ∀ id ∈ granted ev.call ev.answer, inCharge a id = 0

/-! ## What one call does -/

section

variable {now : DateTime} {id : String} {c : ProviderCall} {x y : Option WorkflowStatus}

theorem waits_le_one : waits x ≤ 1 := by
  unfold waits
  split <;> omega

theorem waits_of_not {row : WorkflowStatus} (h : row.status.waits = false) :
    waits (some row) = 0 := by
  simp [waits, h]

/-- A row begins to wait only when it is inserted, or by a call that gives up its charge. -/
theorem Touch.waits_le (h : Touch now id c x y) : waits y ≤ waits x ∨
    (∃ status, c = .insertWorkflowStatus status ∧ x = none ∧ y = some status) ∨
    spent (.provider c) = some id := by
  have hstill {row : WorkflowStatus} (h : row.status.waits = false) :
      waits (some row) ≤ waits x := by
    rw [waits_of_not h]
    exact Nat.zero_le _
  cases h with
  | keep => exact .inl (le_refl _)
  | create hid => exact .inr (.inl ⟨_, rfl, rfl, rfl⟩)
  | @write row status output error hguard =>
    cases hs : status.waits with
    | true => exact .inr (.inr (if_pos hs))
    | false => exact .inl (hstill hs)
  | cancel hc hlive => exact .inl (hstill (by simp [cancelRow, hlive, Status.waits]))
  | resume => exact .inl (hstill rfl)
  | enqueue => exact .inr (.inr rfl)
  | @bump row max =>
    refine .inl ?_
    simp only [bumpRow]
    split
    · exact hstill rfl
    · exact le_refl _
  | claim => exact .inl (hstill rfl)
  | promote hdelayed => exact .inl (by simp [waits, hdelayed, Status.waits])
  | delete => exact .inl (Nat.zero_le _)

theorem Touch.stays (h : Touch now id c x y) (hc : Eff.Mild (.provider c)) (hy : y = none) :
    x = none := by
  cases h with
  | keep => exact hy
  | delete => exact hc.elim
  | _ => cases hy

variable {X : TextCodec} {w w' : World Inner} {r : Except Error c.Result}

/-- **Where a charge comes from**: off the queue by a claim, or by an insert or a listing that find
the row in the table or put it there. -/
theorem granted_cases (hg : WellKeyed w.store) (h : (provider X).handle (.provider c) w r w')
    (hmild : Eff.Mild (.provider c)) (hid : id ∈ granted (.provider c) r) :
    (granted (.provider c) r).count id = 1 ∧ spent (.provider c) = none ∧
      ((waits (w.store.workflows.lookup id) = 1 ∧ waits (w'.store.workflows.lookup id) = 0) ∨
        (∀ req, c ≠ .dequeueWorkflows req) ∧ w'.store.workflows.lookup id ≠ none ∧
          waits (w'.store.workflows.lookup id) ≤ waits (w.store.workflows.lookup id)) := by
  obtain ⟨uuid, rfl, rfl⟩ := Provider.handle_provider.mp h
  cases c with
  | insertWorkflowStatus status =>
    have hcall : (provider X).call (.insertWorkflowStatus status) w.clock uuid w.store =
        insertWorkflowStatus status w.store := rfl
    rw [hcall] at hid ⊢
    obtain ⟨_, _, _, _, _, heq⟩ | ⟨-, heq⟩ := insertWorkflowStatus_cases status w.store
    · rw [heq] at hid
      exact absurd hid not_mem_nil
    · rw [heq] at hid ⊢
      -- The answer grants the inserted id alone.
      have honly {row : WorkflowStatus} {fresh : Bool} (h : id ∈ granted
          (.provider (.insertWorkflowStatus status)) (.ok (row, fresh))) :
          status.queueName = none ∧ id = status.id ∧
            granted (.provider (.insertWorkflowStatus status)) (.ok (row, fresh)) = [id] := by
        simp only [granted] at h ⊢
        split at h
        · next hdirect =>
            obtain rfl := mem_singleton.mp h
            exact ⟨hdirect.1, rfl, if_pos hdirect⟩
        · exact absurd h not_mem_nil
      unfold insertWorkflowStatus.insert at hid ⊢
      split at hid
      · next row hrow =>
          obtain ⟨-, rfl, hgranted⟩ := honly hid
          refine ⟨by rw [hgranted, count_singleton_self], rfl, .inr ⟨?_, ?_, le_refl _⟩⟩
          · rintro _ ⟨⟩
          · simp [hrow]
      · next hrow =>
          obtain ⟨hdirect, rfl, hgranted⟩ := honly hid
          refine ⟨by rw [hgranted, count_singleton_self], rfl, .inr ⟨?_, ?_, ?_⟩⟩
          · rintro _ ⟨⟩
          · simp
          · rw [AList.lookup_insert, waits_of_not (hmild hdirect)]
            exact Nat.zero_le _
  | listWorkflows filter =>
    obtain ⟨rows, hrows, hnodup, hlisted⟩ := listWorkflows_ids hg filter
    have hcall : (provider X).call (.listWorkflows filter) w.clock uuid w.store =
        (.ok rows, w.store) := Prod.ext hrows rfl
    rw [hcall] at hid ⊢
    simp only [granted] at hid ⊢
    split at hid
    · next hpending =>
        rw [if_pos hpending]
        obtain ⟨row, hrow, -⟩ := hlisted id hid
        refine ⟨count_eq_one_of_mem hnodup hid, rfl, .inr ⟨?_, ?_, le_refl _⟩⟩
        · rintro _ ⟨⟩
        · simp [hrow]
    · exact absurd hid not_mem_nil
  | dequeueWorkflows req =>
    obtain ⟨rows, hrows, hids⟩ := @dequeueWorkflows_ids w.store w.clock hg req
    have hcall : (provider X).call (.dequeueWorkflows req) w.clock uuid w.store =
        (.ok rows, (dequeueWorkflows w.clock req w.store).2) := Prod.ext hrows rfl
    rw [hcall] at hid ⊢
    simp only [granted, hids] at hid ⊢
    obtain ⟨row, hrow, henqueued⟩ := enqueued_of_mem_claimIds hg hid
    refine ⟨count_eq_one_of_mem (claimIds_nodup hg req) hid, rfl, .inl ⟨?_, ?_⟩⟩
    · simp [waits, hrow, henqueued, Status.waits]
    · rw [lookup_dequeueWorkflows, if_pos hid, hrow]
      exact waits_of_not rfl
  | _ => exact absurd hid not_mem_nil

variable [Serde DateTime] {E : Engine}

/-- **What one call does to the charges of a workflow**: they do not grow, unless it inserts the
row, or takes charge by an insert or a listing. -/
theorem account (hg : WellKeyed w.store) {e : Eff} {r : Answer e}
    (h : (provider X).handle e w r w') (hmild : e.Mild) {charge : List String}
    (hspent : ∀ id, spent e = some id → id ∈ charge) (id : String) :
    (settle e r charge).count id +
        heldBy id (startedTasks (provider X) E ⟨e, w, r, w'⟩) +
        waits (w'.store.workflows.lookup id) ≤
      charge.count id + waits (w.store.workflows.lookup id) ∨
    w'.store.workflows.lookup id ≠ none ∧
      (w.store.workflows.lookup id = none ∨
        id ∈ granted e r ∧ ∀ req, e ≠ .provider (.dequeueWorkflows req)) ∧
      (settle e r charge).count id +
          heldBy id (startedTasks (provider X) E ⟨e, w, r, w'⟩) +
          waits (w'.store.workflows.lookup id) ≤
        charge.count id + waits (w.store.workflows.lookup id) + 1 := by
  have hcount := @count_settle e r charge hspent id
  cases e with
  | provider c =>
    have hstarted : heldBy id (startedTasks (provider X) E ⟨.provider c, w, r, w'⟩) = 0 := rfl
    by_cases hid : id ∈ granted (.provider c) r
    · obtain ⟨hone, hnone, ⟨hwaited, htaken⟩ | ⟨hreq, hsome, hle⟩⟩ := granted_cases hg h hmild hid
      · rw [hnone, if_neg (by simp)] at hcount
        left
        omega
      · rw [hnone, if_neg (by simp)] at hcount
        refine .inr ⟨hsome, .inr ⟨hid, fun req heq => ?_⟩, by omega⟩
        injection heq with heq
        exact hreq req heq
    · have hzero : (granted (.provider c) r).count id = 0 := count_eq_zero.mpr hid
      have htouch : Touch w.clock id c (w.store.workflows.lookup id)
          (w'.store.workflows.lookup id) := by
        obtain ⟨uuid, -, rfl⟩ := Provider.handle_provider.mp h
        exact touch hg c uuid
      obtain hle | ⟨status, rfl, hnone, hsome⟩ | hs := htouch.waits_le
      · left
        omega
      · have hone := @waits_le_one (w'.store.workflows.lookup id)
        refine .inr ⟨by simp [hsome], .inl hnone, ?_⟩
        omega
      · have hone := @waits_le_one (w'.store.workflows.lookup id)
        rw [if_pos hs] at hcount
        left
        omega
  | spawn id' key input deadlineMs auth =>
    obtain rfl : w' = w := h
    have hstarted : heldBy id (startedTasks (provider X) E
        ⟨.spawn id' key input deadlineMs auth, w', r, w'⟩) ≤
          if spent (.spawn id' key input deadlineMs auth) = some id then 1 else 0 := by
      simp only [startedTasks]
      split
      · simp [heldBy, Task.holds, Stages.name, spent]
      · simp [heldBy]
    have hzero : (granted (.spawn id' key input deadlineMs auth) r).count id = 0 := rfl
    left
    omega
  | _ =>
    obtain ⟨rfl, -⟩ | ⟨c, _, hc, -⟩ := handle_cases h
    · exact .inl (by simp [settle, granted, spent, startedTasks, heldBy])
    · cases hc

end

theorem row_persists {X : TextCodec} {w w' : World Inner} {e : Eff} {r : Answer e} {id : String}
    (hg : WellKeyed w.store) (h : (provider X).handle e w r w') (hmild : e.Mild)
    (hnone : w'.store.workflows.lookup id = none) : w.store.workflows.lookup id = none := by
  obtain ⟨rfl, -⟩ | ⟨c, uuid, rfl, rfl⟩ := handle_cases h
  · exact hnone
  · have htouch : Touch w.clock id c _ _ := touch hg c uuid
    exact htouch.stays hmild hnone

/-! ## The invariant -/

/-- At most one task has a workflow or it waits, a workflow without a row is nobody's, and every
task keeps to its charges. -/
structure Exclusive (c : Pool Task (World Inner)) : Prop where
  keyed : WellKeyed c.world.store
  once : ∀ id, inCharge c id ≤ 1
  absent : ∀ id, c.world.store.workflows.lookup id = none → inCharge c id = 0
  disciplined : ∀ t ∈ c.threads, Disciplined t.code t.charge

theorem inCharge_split {pre post : List Task} {t : Task} {w : World Inner} {id : String} :
    inCharge ⟨w, pre ++ t :: post⟩ id = heldBy id (pre ++ post) + t.holds id +
      waits (w.store.workflows.lookup id) := by
  simp only [inCharge, heldBy_append, heldBy]
  omega

theorem countP_inside_le (ts : List Task) (id : String) :
    ts.countP (fun t => t.code.inside id) ≤ heldBy id ts := by
  induction ts with
  | nil => exact le_refl _
  | cons t ts ih =>
    rw [countP_cons, heldBy, Nat.add_comm]
    refine Nat.add_le_add ?_ ih
    split
    · next hinside => simp [Task.holds, Stages.name_of_inside hinside]
    · exact Nat.zero_le _

variable {a : Pool Task (World Inner)}

theorem Exclusive.of_le {b : Pool Task (World Inner)} (h : Exclusive a)
    (hstore : b.world.store = a.world.store) (hle : ∀ id, inCharge b id ≤ inCharge a id)
    (hd : ∀ t ∈ b.threads, Disciplined t.code t.charge) : Exclusive b where
  keyed := hstore ▸ h.keyed
  once id := (hle id).trans (h.once id)
  absent id hid := Nat.eq_zero_of_le_zero ((hle id).trans_eq (h.absent id (hstore ▸ hid)))
  disciplined := hd

section

variable [Serde DateTime] {X : TextCodec} {E : Engine} {pre post : List Task} {t t' : Task}
  {w w' : World Inner}

theorem disciplined_after {e : Option (Proc.Event Eff Answer (World Inner))}
    (hstep : Task.Step (provider X).handle t w e t' w')
    (h : ∀ u ∈ pre ++ t :: post, Disciplined u.code u.charge) :
    ∀ u ∈ pre ++ t' :: (post ++ e.elim [] (startedTasks (provider X) E)),
      Disciplined u.code u.charge := by
  intro u hu
  simp only [mem_append, mem_cons] at hu
  obtain hu | rfl | hu | hu := hu
  · exact h u (by simp [hu])
  · exact (hstep.disciplined (h t (by simp))).2
  · exact h u (by simp [hu])
  · cases e with
    | none => cases hu
    | some ev => exact disciplined_started ev u hu

/-- **A call keeps the invariant**: it gives out a second charge only if it is not orderly. -/
theorem Exclusive.call {ev : Proc.Event Eff Answer (World Inner)}
    (hstep : Task.Step (provider X).handle t w (some ev) t' w')
    (hok : Orderly ⟨w, pre ++ t :: post⟩ (.ran t (some ev)))
    (h : Exclusive ⟨w, pre ++ t :: post⟩) :
    Exclusive ⟨w', pre ++ t' :: (post ++ startedTasks (provider X) E ev)⟩ := by
  have hd : ∀ u ∈ pre ++ t' :: (post ++ startedTasks (provider X) E ev), _ :=
    disciplined_after hstep h.disciplined
  obtain ⟨hmild, hspent⟩ := (hstep.disciplined (h.disciplined t (by simp))).1 ev rfl
  obtain ⟨call, before, r, after⟩ := ev
  obtain ⟨hbefore, hafter, hr, hname, hcharge⟩ := hstep.event
  dsimp only at hbefore hafter hr hcharge hmild hspent
  subst hbefore hafter
  have hsplit (id : String) : inCharge ⟨after, pre ++ t' :: (post ++ startedTasks (provider X) E
      ⟨call, before, r, after⟩)⟩ id = heldBy id (pre ++ post) + t'.holds id +
        heldBy id (startedTasks (provider X) E ⟨call, before, r, after⟩) +
        waits (after.store.workflows.lookup id) := by
    rw [inCharge_split]
    simp only [heldBy_append]
    omega
  have hholds (id : String) : t'.holds id + t.charge.count id =
      (settle call r t.charge).count id + t.holds id := by
    simp only [Task.holds, hname, hcharge]
    omega
  have hkeyed : WellKeyed before.store := h.keyed
  have haccount (id : String) := account (E := E) hkeyed hr hmild hspent id
  refine ⟨wellKeyed_handle hkeyed hr, fun id => ?_, fun id hnone => ?_, hd⟩
  · have hid := hholds id
    obtain hle | ⟨-, hfree, hle⟩ := haccount id
    · have honce := h.once id
      rw [inCharge_split] at honce
      exact (hsplit id).trans_le (by omega)
    · have hzero : inCharge ⟨before, pre ++ t :: post⟩ id = 0 := by
        obtain hnone | ⟨hmem, hreq⟩ := hfree
        · exact h.absent id hnone
        · exact hok _ _ rfl hreq id hmem
      rw [inCharge_split] at hzero
      exact (hsplit id).trans_le (by omega)
  · have hid := hholds id
    obtain hle | ⟨hsome, -, -⟩ := haccount id
    · have hzero := h.absent id (row_persists hkeyed hr hmild hnone)
      rw [inCharge_split] at hzero
      exact (hsplit id).trans (by omega)
    · exact absurd hnone hsome

/-- **One step keeps the invariant.** -/
theorem Exclusive.step {a b : Pool Task (World Inner)}
    {e : Pool.Happens Task (Option (Proc.Event Eff Answer (World Inner)))}
    (hs : Pool.Step (stagedEngine (provider X) E) a e b) (hok : Orderly a e) (h : Exclusive a) :
    Exclusive b := by
  cases hs with
  | @run pre post new t t' w w' l hrun =>
    obtain ⟨hstep, rfl⟩ := hrun
    cases l with
    | some ev => exact h.call hstep hok
    | none =>
      obtain ⟨rfl, hle⟩ := hstep.silent (h.disciplined t (by simp))
      refine h.of_le rfl (fun id => ?_) (disciplined_after hstep h.disciplined)
      change inCharge ⟨_, pre ++ t' :: (post ++ [])⟩ id ≤ _
      rw [inCharge_split, inCharge_split]
      simpa using hle id
  | @start ts t w hstart =>
    obtain ⟨req, hreq, rfl⟩ := hstart
    refine h.of_le rfl (fun id => ?_) ?_
    · simp [inCharge, heldBy, Task.holds, name_stages]
    · simpa using ⟨disciplined_request hreq, h.disciplined⟩
  | @lose pre post t w =>
    refine h.of_le rfl (fun id => ?_) fun u hu => h.disciplined u ?_
    · rw [inCharge_split]
      simp [inCharge]
    · simp only [mem_append, mem_cons] at hu ⊢
      exact hu.imp_right .inr
  | env henv =>
    exact h.of_le henv.1 (fun id => by simp [inCharge, henv.1]) h.disciplined

/-- **One execution at a time.**  In every run in which an insert that is not queued and the
snapshot of a launch take charge only of workflows that nobody has and that do not wait on a queue,
no workflow has two executions in progress. -/
theorem one_execution {g : Inner} {now : DateTime} (hg : WellKeyed g) {c : Pool Task (World Inner)}
    (h : Pool.Run (stagedEngine (provider X) E) (fun a e _ => Orderly a e) ⟨⟨g, now⟩, []⟩ c)
    (id : String) : executions c id ≤ 1 := by
  have hfirst : Exclusive ⟨⟨g, now⟩, []⟩ :=
    { keyed := hg
      once := fun id => by simpa [inCharge, heldBy] using waits_le_one
      absent := fun id hnone => by simp [inCharge, heldBy, hnone, waits]
      disciplined := fun _ ht => nomatch ht }
  have hlast : Exclusive c := Pool.Run.pool (fun _ _ _ hs hok hinv => hinv.step hs hok) h hfirst
  exact (countP_inside_le c.threads id).trans ((Nat.le_add_right _ _).trans (hlast.once id))

end

/-! ## Runs -/

section

attribute [local instance] serdeNanos

/-- One workflow, which waits for something outside. -/
def desk : Engine where
  registry := [("report", fun _ _ => .op (.outside Unit) fun _ => .done (.returned (.ok .null)))]
  queues := [{ name := "q" }]
  appVersion := ""

theorem orderly_of_idle {t : Task} {ev : Proc.Event Eff Answer (World Inner)}
    (h : granted ev.call ev.answer = []) : Orderly a (.ran t (some ev)) := by
  rintro _ _ ⟨rfl, rfl⟩ - id hid
  rw [h] at hid
  cases hid

theorem orderly_silent {e : Pool.Happens Task (Option (Proc.Event Eff Answer (World Inner)))}
    (h : ∀ t ev, e ≠ .ran t (some ev)) : Orderly a e :=
  fun t ev he => absurd he (h t ev)

/-- `r` is started and runs, and somebody else submits it to a queue: that start finds the row, and
runs nothing. -/
theorem one_execution_report : ∃ c,
    Pool.Run (stagedEngine (provider noText) desk) (fun a e _ => Orderly a e) ⟨⟨{}, ⟨0⟩⟩, []⟩ c ∧
      executions c "r" = 1 ∧ executions c "r" ≤ 1 := by
  have hstart : Pool.Run (stagedEngine (provider noText) desk) (fun a e _ => Orderly a e)
      ⟨⟨{}, ⟨0⟩⟩, []⟩ _ :=
    (Pool.Run.refl _).enter (t := ⟨_, []⟩)
      ⟨.start "" Unit "report" () { workflowId := some "r" }, trivial, rfl⟩
      (orderly_silent fun _ _ h => nomatch h)
  have hturned := turnStaged hstart 0 rfl (orderly_silent fun _ _ h => nomatch h)
  have hread := actStaged hturned 0 rfl _ ⟨rfl, rfl⟩ (orderly_of_idle rfl)
  have hcreated := actStaged hread 0 rfl _ ⟨rfl, rfl⟩ (orderly_of_idle rfl)
  have hinserted := actStaged hcreated 0 rfl _ told (by
    rintro _ _ ⟨rfl, rfl⟩ - id hid
    obtain rfl : id = "r" := mem_singleton.mp hid
    rfl)
  have hrunning := actStaged hinserted 0 rfl () rfl (orderly_of_idle rfl)
  have hagain := hrunning.enter (t := ⟨_, []⟩)
    ⟨.start "" Unit "report" () { workflowId := some "r", queue := some "q" }, trivial, rfl⟩
    (orderly_silent fun _ _ h => nomatch h)
  have hturned := turnStaged hagain 0 rfl (orderly_silent fun _ _ h => nomatch h)
  have hread := actStaged hturned 0 rfl _ ⟨rfl, rfl⟩ (orderly_of_idle rfl)
  have hcreated := actStaged hread 0 rfl _ ⟨rfl, rfl⟩ (orderly_of_idle rfl)
  have hfound := actStaged hcreated 0 rfl _ told (orderly_of_idle rfl)
  exact ⟨_, hfound, rfl, one_execution wellKeyed_empty hfound "r"⟩

/-- **Two executions of one workflow**: `r` is started twice, without a queue, and the second start
finds the row of the first and runs it again. -/
theorem two_executions : ∃ c, Pool.Run (stagedEngine (provider noText) desk) (fun _ _ _ => True)
    ⟨⟨{}, ⟨0⟩⟩, []⟩ c ∧ executions c "r" = 2 := by
  have hstart : Pool.Run (stagedEngine (provider noText) desk) (fun _ _ _ => True)
      ⟨⟨{}, ⟨0⟩⟩, []⟩ _ :=
    (Pool.Run.refl _).enter (t := ⟨_, []⟩)
      ⟨.start "" Unit "report" () { workflowId := some "r" }, trivial, rfl⟩ trivial
  have hturned := turnStaged hstart 0 rfl trivial
  have hcreated := actStaged (actStaged hturned 0 rfl _ ⟨rfl, rfl⟩ trivial) 0 rfl _
    ⟨rfl, rfl⟩ trivial
  have hrunning := actStaged (actStaged hcreated 0 rfl _ told trivial) 0 rfl () rfl trivial
  have hagain := hrunning.enter (t := ⟨_, []⟩)
    ⟨.start "" Unit "report" () { workflowId := some "r" }, trivial, rfl⟩ trivial
  have hturned := turnStaged hagain 0 rfl trivial
  have hfound := actStaged (actStaged hturned 0 rfl _ ⟨rfl, rfl⟩ trivial) 0 rfl _ ⟨rfl, rfl⟩ trivial
  have htwice := actStaged (actStaged hfound 0 rfl _ told trivial) 0 rfl () rfl trivial
  exact ⟨_, htwice, rfl⟩

end

end Durare.Memory
