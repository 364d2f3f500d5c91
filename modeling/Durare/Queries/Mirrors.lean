import Durare.Store.Memory
import Durare.Store.Sqlite

/-!
# Queries/Mirrors — one set of rows in two backends

To compare what two backends answer, both are given the same rows: `Mirrors` relates an in-memory
store to a database that has, under the same keys, rows whose columns hold the same.  Only what a
query reads is compared.  The column `was_forked_from` has no counterpart in memory, where it is
derived from the other rows, so nothing is assumed about it.
-/

namespace Durare

/-- A row of `workflow_status` that holds what an in-memory row does. -/
structure RowMirrors (w : WorkflowStatus) (r : Sqlite.StatusRow) : Prop where
  id : r.workflowUuid = w.id
  name : r.name = w.name
  status : r.status = w.status
  executorId : r.executorId = w.executorId
  appVersion : r.applicationVersion = w.appVersion
  queueName : r.queueName = w.queueName
  parentWorkflowId : r.parentWorkflowId = w.parentWorkflowId
  forkedFrom : r.forkedFrom = w.forkedFrom
  authenticatedUser : r.authenticatedUser = w.authenticatedUser
  startedAtMs : r.startedAtEpochMs = w.startedAtMs
  completedAtMs : r.completedAt = w.completedAtMs
  createdAt : r.createdAt = w.createdAt.timestampMillis

/-- A row of `operation_outputs` that holds what an in-memory step does; of an error only that there
is one. -/
structure StepMirrors (row : Memory.StepRow) (r : OperationRow) : Prop where
  name : r.functionName = row.name
  failed : r.error.isSome = row.error.isSome
  startedAtMs : r.startedAtEpochMs = row.startedAtMs
  completedAtMs : r.completedAtEpochMs = row.completedAtMs

/-- **The database has the rows of the store.** -/
structure Mirrors (g : Memory.Inner) (db : Sqlite.Db) : Prop where
  rows : ∀ id, Option.Rel RowMirrors (g.workflows.lookup id) (db.workflowStatus.lookup id)
  steps : ∀ key, Option.Rel StepMirrors (g.steps.lookup key) (db.operationOutputs.lookup key)

variable {g : Memory.Inner} {db : Sqlite.Db}

theorem Mirrors.exists_row_pairs (h : Mirrors g db) :
    ∃ pairs : List (WorkflowStatus × Sqlite.StatusRow), g.workflows.values = pairs.map Prod.fst ∧
      db.workflowStatus.values.Perm (pairs.map Prod.snd) ∧ ∀ p ∈ pairs, RowMirrors p.1 p.2 := by
  obtain ⟨pairs, hleft, hright, hrel⟩ := AList.exists_pairs h.rows
  refine ⟨pairs.map Prod.snd, ?_, ?_, fun p hp => ?_⟩
  · rw [AList.values, hleft, List.map_map, List.map_map]
    rfl
  · have hvalues := hright.map Sigma.snd
    rw [List.map_map] at hvalues
    rw [List.map_map]
    exact hvalues
  · obtain ⟨entry, hentry, rfl⟩ := List.mem_map.mp hp
    exact hrel entry hentry

end Durare
