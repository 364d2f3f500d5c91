import Durare.Operations.System

/-!
# Operations/StepLog — the step log is write-once

Four methods record a row of the step log, and all four leave a row that is there alone.  A fork and
an import overwrite, but only under the ids they create.  So a row stays as it was first written
until its workflow is deleted, and whoever records at its key later is answered with it.
-/

namespace Durare.Memory

open List

/-- Nothing is stored about the workflow yet. -/
structure Unstored (id : String) (g : Inner) : Prop where
  workflow : g.workflows.lookup id = none
  steps : ∀ seq, g.steps.lookup (id, seq) = none

namespace Operation

/-- Forks and imports go to ids about which nothing is stored. -/
def OntoFresh : Operation → Inner → Prop
  | forkWorkflow params, g => Unstored params.newId g
  | importWorkflow workflows, g => ∀ wf ∈ workflows, Unstored wf.id g
  | _, _ => True

/-- The workflow `id` is deleted. -/
def Deletes (id : String) : Operation → Inner → Prop
  | call (.deleteWorkflows ids children), g => id ∈ deleteTargets ids children g
  | garbageCollect cutoff threshold, g => id ∈ victims cutoff threshold g
  | _, _ => False

end Operation

section

variable {X : TextCodec} {now : DateTime} {id uuid : String} {seq : Int} {row : StepRow} {g : Inner}

theorem lookup_insertAll_of_ne {κ α : Type} [DecidableEq κ] {k : κ} {rows : List (κ × α)}
    (h : ∀ entry ∈ rows, k ≠ entry.1) (t : Table κ α) :
    (insertAll t rows).lookup k = t.lookup k := by
  induction rows generalizing t with
  | nil => rfl
  | cons entry rows ih =>
    have hrest := ih (fun e he => h e (mem_cons_of_mem _ he)) (t.insert entry.1 entry.2)
    exact hrest.trans (AList.lookup_insert_ne (h entry mem_cons_self))

/-- Rows inserted one after the other, no two of which differ at a key. -/
theorem lookup_insertAll_of_mem {κ α : Type} [DecidableEq κ] {rows : List (κ × α)} {k : κ} {a : α}
    (hmem : (k, a) ∈ rows) (hsame : ∀ b, (k, b) ∈ rows → b = a) (t : Table κ α) :
    (insertAll t rows).lookup k = some a := by
  induction rows generalizing t with
  | nil => cases hmem
  | cons row rows ih =>
    by_cases hrest : (k, a) ∈ rows
    · exact ih hrest (fun b hb => hsame b (mem_cons_of_mem _ hb)) _
    · obtain rfl : (k, a) = row := (mem_cons.mp hmem).resolve_right hrest
      have hnot : ∀ entry ∈ rows, k ≠ entry.1 := by
        rintro ⟨k', b⟩ hentry rfl
        exact hrest (hsame b (mem_cons_of_mem _ hentry) ▸ hentry)
      exact (lookup_insertAll_of_ne hnot _).trans (AList.lookup_insert _)

theorem ne_of_mem_copiedSteps {params : ForkParams} {steps : Table (String × Int) StepRow}
    (hid : id ≠ params.newId) : ∀ entry ∈ copiedSteps params steps, (id, seq) ≠ entry.1 := by
  intro entry hentry heq
  obtain ⟨e, -, rfl⟩ := mem_map.mp hentry
  exact hid (congrArg Prod.fst heq)

theorem steps_imports {workflows : List ExportedWorkflow} (h : ∀ wf ∈ workflows, wf.id ≠ id) :
    (workflows.foldl (importOne X now) g).steps.lookup (id, seq) = g.steps.lookup (id, seq) := by
  induction workflows generalizing g with
  | nil => rfl
  | cons wf workflows ih =>
    rw [foldl_cons, ih fun wf' hwf => h wf' (mem_cons_of_mem _ hwf)]
    refine lookup_insertAll_of_ne (fun entry hentry heq => ?_) g.steps
    obtain ⟨op, -, rfl⟩ := mem_map.mp hentry
    exact h wf mem_cons_self (congrArg Prod.fst heq).symm

/-- A row with that key is recorded unless there is one, the workflows of a delete go, or nothing
happens. -/
theorem steps_call (c : ProviderCall) :
    (call c now uuid g).2.steps = g.steps ∨
    (∃ key new, (call c now uuid g).2.steps = g.steps.insertNew key new) ∨
    ∃ ids children, c = .deleteWorkflows ids children ∧ (call c now uuid g).2.steps =
      g.steps.retain fun k => !(deleteTargets ids children g).contains k.1 := by
  by_cases hc : Files c
  · cases c with
    | recordStepResult | recordChildWorkflow | recordPatch => exact .inr (.inl ⟨_, _, rfl⟩)
    | consumeNotification id topic seq name =>
      change (consumeNotification id topic seq name g).2.steps = _ ∨
        (∃ key new, (consumeNotification id topic seq name g).2.steps = _) ∨ _
      unfold consumeNotification
      split
      · exact .inl rfl
      · exact .inr (.inl ⟨_, _, rfl⟩)
    | deleteWorkflows ids children => exact .inr (.inr ⟨ids, children, rfl, rfl⟩)
    | insertNotification dest topic message key =>
      refine .inl ?_
      change (insertNotification now uuid dest topic message key g).2.steps = g.steps
      obtain ⟨-, heq⟩ | ⟨-, -, heq⟩ | ⟨-, -, heq⟩ :=
        insertNotification_cases now uuid dest topic message key g
      all_goals rw [heq]
    | writeStream id key value seq =>
      refine .inl ?_
      change (writeStream id key value g).2.steps = g.steps
      unfold writeStream
      dsimp only
      split_ifs
      · rfl
      · rfl
    | upsertEvent => exact .inl rfl
    | _ => exact hc.elim
  · exact .inl (sameFiles_call hc).steps

theorem lookup_retain_of_notMem {targets : List String} (h : id ∉ targets) :
    (g.steps.retain fun k => !targets.contains k.1).lookup (id, seq) =
      g.steps.lookup (id, seq) := by
  rw [AList.lookup_retain, if_pos (by simpa using h)]

/-- **An operation leaves a recorded row alone**, unless it deletes its workflow. -/
theorem row_stays {op : Operation} (hfresh : op.OntoFresh g) (hdelete : ¬op.Deletes id g)
    (hrow : g.steps.lookup (id, seq) = some row) :
    (op.run X now uuid g).steps.lookup (id, seq) = some row := by
  have hstored {id' : String} (h : Unstored id' g) : id ≠ id' := by
    rintro rfl
    rw [h.steps seq] at hrow
    cases hrow
  cases op with
  | call c =>
    change (call c now uuid g).2.steps.lookup (id, seq) = some row
    rcases steps_call c with hsame | ⟨key, new, hnew⟩ | ⟨ids, children, rfl, hdel⟩
    · rw [hsame, hrow]
    · rw [hnew]
      exact AList.lookup_insertNew_of_some hrow _ _
    · rw [hdel, lookup_retain_of_notMem hdelete, hrow]
  | forkWorkflow params =>
    change (forkWorkflow now params g).2.steps.lookup (id, seq) = some row
    unfold forkWorkflow
    split
    · exact hrow
    · exact (lookup_insertAll_of_ne (ne_of_mem_copiedSteps (hstored hfresh)) g.steps).trans hrow
  | importWorkflow workflows =>
    change (importWorkflow X now workflows g).2.steps.lookup (id, seq) = some row
    unfold importWorkflow
    split
    · exact hrow
    · exact (steps_imports fun wf hwf => (hstored (hfresh wf hwf)).symm).trans hrow
  | garbageCollect cutoff threshold =>
    change (garbageCollect cutoff threshold g).2.steps.lookup (id, seq) = some row
    rw [garbageCollect_state, steps_deleteWorkflows]
    exact (lookup_retain_of_notMem hdelete).trans hrow
  | setWorkflowDelay | createApplicationVersion | setLatestApplicationVersion =>
    refine (congrArg (AList.lookup (id, seq)) (sameFiles_run ?_).steps).trans hrow
    exact not_false

/-- **The step log is write-once.**  Whatever is done to the store, a recorded row stays as it is
until its workflow is deleted, and a later record at its key answers what it says. -/
theorem step_log_write_once {g' : Inner} (hrow : g.steps.lookup (id, seq) = some row)
    (hrun : Reaches X (fun op g => op.OntoFresh g ∧ ¬op.Deletes id g) g g') :
    g'.steps.lookup (id, seq) = some row ∧ ∀ now name value error startedAtMs,
      (recordStepResult now id seq name value error startedAtMs g').1 =
        .ok (stepRowOutcome row) := by
  have hstays : g'.steps.lookup (id, seq) = some row :=
    hrun.invariant (I := fun g => g.steps.lookup (id, seq) = some row)
      (fun _ _ _ _ hop hg => row_stays hop.1 hop.2 hg) hrow
  refine ⟨hstays, fun now name value error startedAtMs => ?_⟩
  simp [recordStepResult, hstays]

end

/-- A workflow that has recorded the step `charge`. -/
def oneStep : Inner where
  workflows := AList.singleton "wf" (.new ⟨0⟩ "wf" "pay" .null .pending "local" "")
  steps := AList.singleton ("wf", 0) { name := "charge", output := some .null }

/-- A patch marker at the same key, a fork, and a delete of the fork. -/
theorem step_log_write_once_charge : ∃ g',
    Reaches noText (fun op g => op.OntoFresh g ∧ ¬op.Deletes "wf" g) oneStep g' ∧
      g'.steps.lookup ("wf", 0) = some { name := "charge", output := some .null } := by
  have hpatch : Step noText (fun op g => op.OntoFresh g ∧ ¬op.Deletes "wf" g) oneStep oneStep :=
    ⟨.call (.recordPatch "wf" 0 "DBOS.patch-v2"), ⟨0⟩, "", ⟨trivial, id⟩, rfl⟩
  have hfork : Step noText (fun op g => op.OntoFresh g ∧ ¬op.Deletes "wf" g) oneStep _ :=
    ⟨.forkWorkflow ⟨"wf", "fork", 1, none, "q", none⟩, ⟨0⟩, "", ⟨⟨rfl, fun _ => rfl⟩, id⟩, rfl⟩
  have hspared {g : Inner} : ¬(Operation.call
      (.deleteWorkflows ["fork"] false)).Deletes "wf" g := by
    simp [Operation.Deletes, deleteTargets]
  have hdelete {g : Inner} : Step noText (fun op g => op.OntoFresh g ∧ ¬op.Deletes "wf" g) g _ :=
    ⟨.call (.deleteWorkflows ["fork"] false), ⟨0⟩, "", ⟨trivial, hspared⟩, rfl⟩
  have hrun := ((Relation.ReflTransGen.single hpatch).tail hfork).tail hdelete
  exact ⟨_, hrun, (step_log_write_once rfl hrun).1⟩

end Durare.Memory
