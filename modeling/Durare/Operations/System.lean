import Durare.Engine.RowSteps
import Durare.Store.Transfer

/-!
# Operations/System — any sequence of operations of the in-memory backend

The backend is used by many parties at once, but each of its methods holds the lock from beginning
to end.  So what they do together is a sequence of operations: `Step` is one operation that an
assumption on operations and states allows, and a run is any number of them.

* `Touches` — what an operation can do to the row of one workflow, `touches` that there is nothing
  else.
* `Reaches.invariant` — what every operation keeps holds in every state reached.
-/

namespace Durare.Memory

/-- An operation of the backend that may change what it stores. -/
inductive Operation where
  | call (c : ProviderCall)
  | forkWorkflow (params : ForkParams)
  | importWorkflow (workflows : List ExportedWorkflow)
  | garbageCollect (cutoffEpochMs rowsThreshold : Option Int)
  | setWorkflowDelay (id : String) (delayUntilMs : Int)
  | createApplicationVersion (versionName : String)
  | setLatestApplicationVersion (versionName : String)

namespace Operation

variable (X : TextCodec) (now : DateTime) (uuid : String)

/-- The state an operation leaves. -/
def run : Operation → Inner → Inner
  | call c, g => (Memory.call c now uuid g).2
  | forkWorkflow params, g => (Memory.forkWorkflow now params g).2
  | importWorkflow workflows, g => (Memory.importWorkflow X now workflows g).2
  | garbageCollect cutoff threshold, g => (Memory.garbageCollect cutoff threshold g).2
  | setWorkflowDelay id delayUntilMs, g => (Memory.setWorkflowDelay now id delayUntilMs g).2
  | createApplicationVersion name, g => (Memory.createApplicationVersion now name g).2
  | setLatestApplicationVersion name, g => (Memory.setLatestApplicationVersion now name g).2

end Operation

/-! ## Runs -/

/-- One operation that `allowed` allows in the state it finds. -/
def Step (X : TextCodec) (allowed : Operation → Inner → Prop) (g g' : Inner) : Prop :=
  ∃ op now uuid, allowed op g ∧ g' = op.run X now uuid g

/-- Any number of allowed operations. -/
abbrev Reaches (X : TextCodec) (allowed : Operation → Inner → Prop) : Inner → Inner → Prop :=
  Relation.ReflTransGen (Step X allowed)

variable {allowed : Operation → Inner → Prop} {g : Inner}

/-- **What every allowed operation keeps holds in every state reached.** -/
theorem Reaches.invariant {X : TextCodec} {I : Inner → Prop}
    (hstep : ∀ op now uuid g, allowed op g → I g → I (op.run X now uuid g)) {g' : Inner}
    (hrun : Reaches X allowed g g') (hg : I g) : I g' := by
  induction hrun with
  | refl => exact hg
  | tail _ h ih =>
    obtain ⟨op, now, uuid, hallowed, rfl⟩ := h
    exact hstep op now uuid _ hallowed ih

/-! ## Deletes -/

/-- The ids a delete removes: the given ones, and with `deleteChildren` their descendants. -/
def deleteTargets (ids : List String) (deleteChildren : Bool) (g : Inner) : List String :=
  if deleteChildren then expandTargets g (ids.length + g.workflows.entries.length +
    1) 0 ids else ids

theorem workflows_deleteWorkflows (ids : List String) (children : Bool) (g : Inner) :
    (deleteWorkflows ids children g).2.workflows =
      g.workflows.retain fun id => !(deleteTargets ids children g).contains id := rfl

theorem steps_deleteWorkflows (ids : List String) (children : Bool) (g : Inner) :
    (deleteWorkflows ids children g).2.steps =
      g.steps.retain fun k => !(deleteTargets ids children g).contains k.1 := rfl

theorem streams_deleteWorkflows (ids : List String) (children : Bool) (g : Inner) :
    (deleteWorkflows ids children g).2.streams =
      g.streams.retain fun k => !(deleteTargets ids children g).contains k.1 := rfl

theorem notifications_deleteWorkflows (ids : List String) (children : Bool) (g : Inner) :
    (deleteWorkflows ids children g).2.notifications = g.notifications.filter fun n =>
      !(deleteTargets ids children g).contains n.destinationId := rfl

theorem resolveGcCutoff_state (cutoff threshold : Option Int) (g : Inner) :
    (resolveGcCutoff cutoff threshold g).2 = g := by
  unfold resolveGcCutoff
  split
  · rfl
  · split
    · rfl
    · rfl

/-- The rows a collection lists, to delete them. -/
def victims (cutoffEpochMs rowsThreshold : Option Int) (g : Inner) : List String :=
  match (resolveGcCutoff cutoffEpochMs rowsThreshold g).1 with
  | .ok (some cutoff) => match (listWorkflows (victimFilter cutoff) g).1 with
    | .ok rows => rows.map (·.id)
    | .error _ => []
  | _ => []

theorem deleteWorkflows_nil (g : Inner) : (deleteWorkflows [] false g).2 = g := by
  simp [deleteWorkflows]

theorem garbageCollect_state (cutoff threshold : Option Int) (g : Inner) :
    (garbageCollect cutoff threshold g).2 =
      (deleteWorkflows (victims cutoff threshold g) false g).2 := by
  have hstate := resolveGcCutoff_state cutoff threshold g
  unfold garbageCollect
  split
  · next heq =>
      rw [heq] at hstate
      rw [victims, heq]
      exact hstate.trans (deleteWorkflows_nil g).symm
  · next heq =>
      rw [heq] at hstate
      rw [victims, heq]
      exact hstate.trans (deleteWorkflows_nil g).symm
  · next heq =>
      rw [heq] at hstate
      subst hstate
      rw [victims, heq]
      rfl

/-! ## The other tables -/

/-- A call that writes to a table besides the workflow rows. -/
def Files : ProviderCall → Prop
  | .recordStepResult _ _ _ _ _ _ | .recordChildWorkflow _ _ _ _ | .recordPatch _ _ _
  | .insertNotification _ _ _ _ | .consumeNotification _ _ _ _ | .upsertEvent _ _ _
  | .writeStream _ _ _ _ | .deleteWorkflows _ _ => True
  | _ => False

/-- The tables besides the workflow rows are the same. -/
structure SameFiles (g g' : Inner) : Prop where
  steps : g'.steps = g.steps
  notifications : g'.notifications = g.notifications
  events : g'.events = g.events
  streams : g'.streams = g.streams

theorem SameFiles.rfl : SameFiles g g := ⟨Eq.refl _, Eq.refl _, Eq.refl _, Eq.refl _⟩

variable {t : Table String WorkflowStatus}

theorem SameFiles.rows :
    SameFiles g { g with workflows := t } := ⟨Eq.refl _, Eq.refl _, Eq.refl _, Eq.refl _⟩

theorem SameFiles.after_rows {g' : Inner} (h : SameFiles { g with workflows := t } g') :
    SameFiles g g' :=
  ⟨h.steps, h.notifications, h.events, h.streams⟩

theorem sameFiles_resumeWorkflows (now : DateTime) (ids : List String) (g : Inner) :
    SameFiles g (resumeWorkflows now ids g).2 := by
  induction ids generalizing g with
  | nil => exact .rfl
  | cons id ids ih =>
    unfold resumeWorkflows
    split
    · split
      · exact (ih _).after_rows
      · exact ih g
    · exact ih g

/-- **Any other call leaves these tables alone.** -/
theorem sameFiles_call {now : DateTime} {uuid : String} {c : ProviderCall} (h : ¬Files c) :
    SameFiles g (call c now uuid g).2 := by
  cases c with
  | recordStepResult | recordChildWorkflow | recordPatch | insertNotification
  | consumeNotification | upsertEvent | writeStream | deleteWorkflows => exact absurd trivial h
  | insertWorkflowStatus status =>
    change SameFiles g (insertWorkflowStatus status g).2
    rcases insertWorkflowStatus_cases status g with ⟨_, _, -, -, -, heq⟩ | ⟨-, heq⟩
    · rw [heq]
      exact .rfl
    · rw [heq, insertWorkflowStatus.insert]
      split
      · exact .rfl
      · exact .rows
  | setWorkflowStatus id status output error =>
    change SameFiles g (setWorkflowStatus now id status output error g).2
    unfold setWorkflowStatus
    split
    · split
      · exact .rfl
      · exact .rows
    · exact .rfl
  | resumeWorkflow id =>
    change SameFiles g (resumeWorkflow now id g).2
    unfold resumeWorkflow
    split
    · split
      · exact .rows
      · exact .rfl
    · exact .rfl
  | resumeWorkflows ids => exact sameFiles_resumeWorkflows now ids g
  | bumpRecoveryAttempts id max =>
    change SameFiles g (bumpRecoveryAttempts now id max g).2
    unfold bumpRecoveryAttempts
    split
    · exact .rows
    · exact .rfl
  | _ => exact .rows

/-- An operation that writes to a table besides the workflow rows and the versions. -/
def Operation.Files : Operation → Prop
  | call c => Memory.Files c
  | forkWorkflow _ | importWorkflow _ | garbageCollect _ _ => True
  | setWorkflowDelay _ _ | createApplicationVersion _ | setLatestApplicationVersion _ => False

theorem sameFiles_run {X : TextCodec} {now : DateTime} {uuid : String} {op : Operation}
    (h : ¬op.Files) : SameFiles g (op.run X now uuid g) := by
  cases op with
  | call c => exact sameFiles_call h
  | forkWorkflow | importWorkflow | garbageCollect => exact absurd trivial h
  | setWorkflowDelay id delayUntilMs =>
    change SameFiles g (setWorkflowDelay now id delayUntilMs g).2
    unfold setWorkflowDelay
    split
    · split
      · exact .rows
      · exact .rfl
    · exact .rfl
  | createApplicationVersion name => exact ⟨rfl, rfl, rfl, rfl⟩
  | setLatestApplicationVersion name =>
    change SameFiles g (setLatestApplicationVersion now name g).2
    unfold setLatestApplicationVersion
    split
    · exact ⟨rfl, rfl, rfl, rfl⟩
    · exact .rfl

/-! ## The row of one workflow -/

/-- How an operation can change the row of `id`. -/
inductive Touches (X : TextCodec) (now : DateTime) (id : String) :
    Operation → Option WorkflowStatus → Option WorkflowStatus → Prop where
  | keep {op : Operation} {x : Option WorkflowStatus} : Touches X now id op x x
  | call {c : ProviderCall} {x y : Option WorkflowStatus} (h : Touch now id c x y) :
      Touches X now id (.call c) x y
  | fork {params : ForkParams} {original : WorkflowStatus} {x : Option WorkflowStatus}
      (hid : params.newId = id) :
      Touches X now id (.forkWorkflow params) x (some (forkRow now params original))
  | imported {workflows : List ExportedWorkflow} {wf : ExportedWorkflow} {x : Option WorkflowStatus}
      (hwf : wf ∈ workflows) (hid : wf.id = id) : Touches X now id (.importWorkflow workflows) x
        (some (mapToStatus X now wf.workflowStatus))
  | collect {cutoff threshold : Option Int} {x : Option WorkflowStatus} :
      Touches X now id (.garbageCollect cutoff threshold) x none
  | delay {delayUntilMs : Int} {row : WorkflowStatus} (h : row.status = .delayed) :
      Touches X now id (.setWorkflowDelay id delayUntilMs) (some row)
        (some (delayRow now delayUntilMs row))

section

variable {X : TextCodec} {now : DateTime} {id : String} {g : Inner}

theorem touches_fork (params : ForkParams) :
    Touches X now id (.forkWorkflow params) (g.workflows.lookup id)
      ((forkWorkflow now params g).2.workflows.lookup id) := by
  unfold forkWorkflow
  split
  · exact .keep
  · by_cases hid : id = params.newId
    · subst hid
      rw [AList.lookup_insert]
      exact .fork rfl
    · rw [AList.lookup_insert_ne hid]
      exact .keep

/-- The row of `id` after an import is one of the imported ones, or the one that was there. -/
theorem lookup_imports (X : TextCodec) (now : DateTime) (id : String)
    (workflows : List ExportedWorkflow) (g : Inner) :
    (workflows.foldl (importOne X now) g).workflows.lookup id = g.workflows.lookup id ∨
      ∃ wf ∈ workflows, wf.id = id ∧ (workflows.foldl (importOne X now) g).workflows.lookup id =
        some (mapToStatus X now wf.workflowStatus) := by
  induction workflows generalizing g with
  | nil => exact .inl rfl
  | cons wf workflows ih =>
    rw [List.foldl_cons]
    rcases ih (importOne X now g wf) with hkeep | ⟨wf', hmem, hid, hrow⟩
    · rw [hkeep]
      by_cases hid : id = wf.id
      · subst hid
        exact .inr ⟨wf, List.mem_cons_self, rfl, AList.lookup_insert _⟩
      · exact .inl (AList.lookup_insert_ne hid)
    · exact .inr ⟨wf', List.mem_cons_of_mem _ hmem, hid, hrow⟩

theorem touches_import (workflows : List ExportedWorkflow) :
    Touches X now id (.importWorkflow workflows) (g.workflows.lookup id)
      ((importWorkflow X now workflows g).2.workflows.lookup id) := by
  unfold importWorkflow
  split
  · exact .keep
  · dsimp only
    rcases lookup_imports X now id workflows g with hkeep | ⟨wf, hmem, hid, hrow⟩
    · rw [hkeep]
      exact .keep
    · rw [hrow]
      exact .imported hmem hid

theorem touches_garbageCollect (cutoff threshold : Option Int) :
    Touches X now id (.garbageCollect cutoff threshold) (g.workflows.lookup id)
      ((garbageCollect cutoff threshold g).2.workflows.lookup id) := by
  rw [garbageCollect_state, workflows_deleteWorkflows, AList.lookup_retain]
  split
  · exact .keep
  · exact .collect

theorem touches_setWorkflowDelay (id' : String) (delayUntilMs : Int) :
    Touches X now id (.setWorkflowDelay id' delayUntilMs) (g.workflows.lookup id)
      ((setWorkflowDelay now id' delayUntilMs g).2.workflows.lookup id) := by
  unfold setWorkflowDelay
  split
  · next row hrow =>
      split
      · next hdelayed =>
          by_cases hid : id = id'
          · subst hid
            rw [hrow, AList.lookup_insert]
            exact .delay hdelayed
          · rw [AList.lookup_insert_ne hid]
            exact .keep
      · exact .keep
  · exact .keep

/-- **What an operation can do to a row.** -/
theorem touches (hg : WellKeyed g) (op : Operation) (uuid : String) :
    Touches X now id op (g.workflows.lookup id) ((op.run X now uuid g).workflows.lookup id) := by
  cases op with
  | call c => exact .call (touch hg c uuid)
  | forkWorkflow params => exact touches_fork params
  | importWorkflow workflows => exact touches_import workflows
  | garbageCollect cutoff threshold => exact touches_garbageCollect cutoff threshold
  | setWorkflowDelay id' delayUntilMs => exact touches_setWorkflowDelay id' delayUntilMs
  | createApplicationVersion name => exact .keep
  | setLatestApplicationVersion name =>
    change Touches X now id _ _ ((setLatestApplicationVersion now name g).2.workflows.lookup id)
    unfold setLatestApplicationVersion
    split
    · exact .keep
    · exact .keep

theorem Touches.id_eq {op : Operation} {x : Option WorkflowStatus} {row' : WorkflowStatus}
    (h : Touches X now id op x (some row')) (hx : ∀ row, x = some row → row.id = id) :
    row'.id = id := by
  cases h with
  | keep => exact hx row' rfl
  | call h => exact h.id_eq hx
  | fork hid => exact hid
  | imported _ hid => exact hid
  | @delay _ row => exact hx row rfl

theorem wellKeyed_run (hg : WellKeyed g) (op : Operation) (uuid : String) :
    WellKeyed (op.run X now uuid g) := by
  intro id row hrow
  have htouches : Touches X now id op _ _ := touches hg op uuid
  rw [hrow] at htouches
  exact htouches.id_eq (hg id)

/-- **An invariant of single rows**: it holds of every row that can come about from an empty store,
if no allowed touch breaks it. -/
theorem Reaches.rows {R : WorkflowStatus → Prop}
    (hR : ∀ op now id g row', allowed op g →
      Touches X now id op (g.workflows.lookup id) (some row') →
      (∀ row, g.workflows.lookup id = some row → R row) → R row')
    (hrun : Reaches X allowed {} g) : ∀ id row, g.workflows.lookup id = some row → R row := by
  have hrows : WellKeyed g ∧ ∀ id row, g.workflows.lookup id = some row → R row := by
    refine hrun.invariant (I := fun g => WellKeyed g ∧ ∀ id row, g.workflows.lookup id = some row →
      R row) ?_ ⟨wellKeyed_empty, fun _ _ h => nomatch h⟩
    rintro op now uuid g hop ⟨hg, hall⟩
    refine ⟨wellKeyed_run hg op uuid, fun id row' hrow' => ?_⟩
    have htouches : Touches X now id op _ _ := touches hg op uuid
    rw [hrow'] at htouches
    exact hR op now id g row' hop htouches (hall id)
  exact hrows.2

end

end Durare.Memory
