import Durare.Store.Memory

/-!
# Store/Transfer — forks, imports, versions, garbage collection

The methods of `InMemoryProvider` that move whole workflows: a fork copies the checkpoints of one
workflow to another id, an import inserts rows that some backend exported, and garbage collection
deletes old terminal workflows.  A fork and an import write with `insert`, where every other writer
of the step log writes only what is not there.

Exported rows are JSON objects keyed by column; `colStr` and `colI64` read a column.  The instants
`chrono` cannot represent are left out.
-/

namespace Durare.Memory

/-! ## Forks -/

/-- Parameters of a fork. -/
structure ForkParams where
  originalId : String
  newId : String
  startStep : Int
  appVersion : Option String := none
  queueName : String
  partitionKey : Option String := none

/-- The row of a fork. -/
def forkRow (now : DateTime) (params : ForkParams) (original : WorkflowStatus) : WorkflowStatus :=
  { WorkflowStatus.new now params.newId original.name original.input .enqueued ""
      (params.appVersion.getD original.appVersion) with
    forkedFrom := some params.originalId
    authenticatedUser := original.authenticatedUser
    assumedRole := original.assumedRole
    authenticatedRoles := original.authenticatedRoles
    className := original.className
    configName := original.configName
    queueName := some params.queueName
    queuePartitionKey := params.partitionKey }

/-- The checkpoints a fork takes over, under its own id. -/
def copiedSteps (params : ForkParams) (steps : Table (String × Int) StepRow) :
    List ((String × Int) × StepRow) :=
  (steps.entries.filter fun e => e.1.1 = params.originalId && e.1.2 < params.startStep).map fun e =>
    ((params.newId, e.1.2), e.2)

/-- Insert rows one after the other: the last one at a key wins. -/
def insertAll {κ α : Type} [DecidableEq κ] (t : Table κ α) (rows : List (κ × α)) : Table κ α :=
  rows.foldl (fun t row => t.insert row.1 row.2) t

def forkWorkflow (now : DateTime) (params : ForkParams) : Method Unit := fun g =>
  match g.workflows.lookup params.originalId with
  | none => (.error (.nonExistentWorkflow params.originalId), g)
  | some original =>
    (.ok (), { g with
      workflows := g.workflows.insert params.newId (forkRow now params original)
      steps := insertAll g.steps (copiedSteps params g.steps) })

/-! ## Imports -/

/-- A row in portable form: a JSON object keyed by column. -/
abbrev Columns := List (String × Value)

/-- One exported workflow, as far as the in-memory backend reads it. -/
structure ExportedWorkflow where
  workflowStatus : Columns := []
  operationOutputs : List Columns := []
  workflowEvents : List Columns := []
  streams : List Columns := []

/-- A column as text, `col_str`. -/
def colStr (m : Columns) (key : String) : Option String :=
  match Value.field m key with
  | some (.string s) => some s
  | _ => none

/-- A column as an `i64`, `col_i64`. -/
def colI64 (m : Columns) (key : String) : Option Int :=
  match Value.field m key with
  | some (.number (.int n)) =>
    if -0x8000000000000000 ≤ n ∧ n < 0x8000000000000000 then some n else none
  | _ => none

/-- `as i32`. -/
def asI32 (n : Int) : Int := (n + 0x80000000) % 0x100000000 - 0x80000000

/-- `as usize`. -/
def asUsize (n : Int) : Nat := (n % 0x10000000000000000).toNat

/-- The status a text stands for. -/
def statusOf : String → Status
  | "ENQUEUED" => .enqueued
  | "DELAYED" => .delayed
  | "PENDING" => .pending
  | "SUCCESS" => .success
  | "ERROR" => .error
  | "CANCELLED" => .cancelled
  | "MAX_RECOVERY_ATTEMPTS_EXCEEDED" => .maxRecoveryAttemptsExceeded
  | text => .other text

/-- The entry that seals a stream. -/
def STREAM_CLOSED_SENTINEL : String := "__DBOS_STREAM_CLOSED__"

variable (X : TextCodec)

/-- A column that holds JSON text. -/
def colJson (m : Columns) (key : String) : Option Value :=
  (colStr m key).bind fun text => (X.fromText text).toOption

/-- `decode_roles`: anything but an array of strings is no roles. -/
def decodeRoles (stored : Option String) : List String :=
  match stored.bind fun text => (X.fromText text).toOption with
  | some (.array items) => (items.mapM asStr).getD []
  | _ => []
where
  /-- `as_str` -/
  asStr : Value → Option String
    | .string s => some s
    | _ => none

/-- `ms_to_dt`; what is missing or outside the range of `chrono` is now. -/
def msToDt (now : DateTime) (ms : Option Int) : DateTime :=
  (ms.bind DateTime.fromTimestampMillis).getD now

/-- Rebuild a workflow row, `map_to_status`. -/
def mapToStatus (now : DateTime) (s : Columns) : WorkflowStatus :=
  let failure := decodeErrorOpt X (colStr s "serialization") (colStr s "error")
  { id := (colStr s "workflow_uuid").getD ""
    name := (colStr s "name").getD ""
    status := statusOf ((colStr s "status").getD "")
    input := (colJson X s "inputs").getD .null
    output := colJson X s "output"
    error := failure.1
    errorInfo := failure.2
    executorId := (colStr s "executor_id").getD ""
    appVersion := (colStr s "application_version").getD ""
    queueName := colStr s "queue_name"
    queuePartitionKey := colStr s "queue_partition_key"
    priority := asI32 ((colI64 s "priority").getD 0)
    dedupId := colStr s "deduplication_id"
    recoveryAttempts := asI32 ((colI64 s "recovery_attempts").getD 0)
    parentWorkflowId := colStr s "parent_workflow_id"
    timeoutMs := colI64 s "workflow_timeout_ms"
    deadlineMs := colI64 s "workflow_deadline_epoch_ms"
    startedAtMs := colI64 s "started_at_epoch_ms"
    rateLimited := false
    delayUntilMs := colI64 s "delay_until_epoch_ms"
    completedAtMs := none
    forkedFrom := colStr s "forked_from"
    authenticatedUser := colStr s "authenticated_user"
    assumedRole := colStr s "assumed_role"
    authenticatedRoles := decodeRoles X (colStr s "authenticated_roles")
    className := colStr s "class_name"
    configName := colStr s "config_name"
    createdAt := msToDt now (colI64 s "created_at")
    updatedAt := msToDt now (colI64 s "updated_at") }

/-- The id a workflow is imported under; a missing one is the empty text. -/
def ExportedWorkflow.id (wf : ExportedWorkflow) : String :=
  (colStr wf.workflowStatus "workflow_uuid").getD ""

/-- The step row of an exported operation, with its key. -/
def importedStep (id : String) (op : Columns) : (String × Int) × StepRow :=
  ((id, asI32 ((colI64 op "function_id").getD 0)),
    { name := (colStr op "function_name").getD ""
      output := colJson X op "output"
      error := colStr op "error"
      childWorkflowId := colStr op "child_workflow_id"
      startedAtMs := colI64 op "started_at_epoch_ms"
      completedAtMs := colI64 op "completed_at_epoch_ms" })

def importedEvent (id : String) (ev : Columns) : (String × String) × Value :=
  ((id, (colStr ev "key").getD ""), (colJson X ev "value").getD .null)

/-- An exported stream entry: its key, its offset, and its value unless it is the closing one. -/
def importedEntry (st : Columns) : String × Nat × Option Value :=
  ((colStr st "key").getD "", asUsize ((colI64 st "offset").getD 0),
    match colStr st "value" with
    | some v => if v = STREAM_CLOSED_SENTINEL then none else (X.fromText v).toOption
    | none => none)

/-- The buffer of one stream, put together by offset.  The source panics if the offset is negative
or the buffer beyond the capacity of a vector. -/
def streamBuffer (rows : List (Nat × Option Value)) : List (Option Value) :=
  let len := (rows.map fun row => row.1 + 1).foldl max 0
  rows.foldl (fun buf row => buf.set row.1 row.2) (List.replicate len none)

def importedStreams (id : String) (streams : List Columns) :
    List ((String × String) × List (Option Value)) :=
  let entries := streams.map (importedEntry X)
  (entries.map (·.1)).dedup.map fun key =>
    ((id, key), streamBuffer ((entries.filter fun e => e.1 = key).map (·.2)))

/-- Insert one workflow with everything that was exported with it. -/
def importOne (now : DateTime) (g : Inner) (wf : ExportedWorkflow) : Inner :=
  { g with
    workflows := g.workflows.insert wf.id (mapToStatus X now wf.workflowStatus)
    steps := insertAll g.steps (wf.operationOutputs.map (importedStep X wf.id))
    events := insertAll g.events (wf.workflowEvents.map (importedEvent X wf.id))
    streams := insertAll g.streams (importedStreams X wf.id wf.streams) }

/-- The first id of an import that has a row already; a workflow without an id is not checked. -/
def existingId (workflows : List ExportedWorkflow) (g : Inner) : Option String :=
  (workflows.filterMap fun wf => colStr wf.workflowStatus "workflow_uuid").find? fun id =>
    (g.workflows.lookup id).isSome

def importWorkflow (now : DateTime) (workflows : List ExportedWorkflow) : Method Unit := fun g =>
  match existingId workflows g with
  | some id => (.error (.app ("workflow " ++ id ++ " already exists")), g)
  | none => (.ok (), workflows.foldl (importOne X now) g)

/-! ## Garbage collection -/

/-- The `threshold`-th newest row. -/
def nthNewest (threshold : Int) : ListFilter where
  sortDesc := true
  limit := some 1
  offset := some (threshold - 1)
  loadInput := false
  loadOutput := false

/-- The newer of the given cutoff and the creation time of the `rowsThreshold`-th newest row,
`resolve_gc_cutoff`. -/
def resolveGcCutoff (cutoffEpochMs rowsThreshold : Option Int) : Method (Option Int) := fun g =>
  match rowsThreshold with
  | none => (.ok cutoffEpochMs, g)
  | some threshold =>
    if threshold ≤ 0 then
      (.error (.app ("rows_threshold must be positive, got " ++ toString threshold)), g)
    else
      let (newest, g) := listWorkflows (nthNewest threshold) g
      (newest.map fun rows => match rows with
        | [] => cutoffEpochMs
        | w :: _ =>
          let rowsCutoff := w.createdAt.timestampMillis
          if cutoffEpochMs.all (· < rowsCutoff) then some rowsCutoff else cutoffEpochMs, g)

/-- The rows garbage collection deletes: terminal ones created strictly before the cutoff.  The
filter's own bound is inclusive. -/
def victimFilter (cutoff : Int) : ListFilter where
  status := [.success, .error, .cancelled, .maxRecoveryAttemptsExceeded]
  endTimeMs := some (i64 (cutoff - 1))
  loadInput := false
  loadOutput := false

/-- The trait's own `garbage_collect`.  It locks the store once to find the cutoff, once to list and
once to delete; this is a collection with nobody in between.  With others in between it is those
calls, of which only the last one writes. -/
def garbageCollect (cutoffEpochMs rowsThreshold : Option Int) : Method Nat := fun g =>
  match resolveGcCutoff cutoffEpochMs rowsThreshold g with
  | (.error e, g) => (.error e, g)
  | (.ok none, g) => (.ok 0, g)
  | (.ok (some cutoff), g) => match listWorkflows (victimFilter cutoff) g with
    | (.error e, g) => (.error e, g)
    | (.ok victims, g) =>
      let ids := victims.map (·.id)
      let (_, g) := deleteWorkflows ids false g
      (.ok ids.length, g)

/-! ## Delays and versions -/

/-- What a new delay does to the row. -/
def delayRow (now : DateTime) (delayUntilMs : Int) (row : WorkflowStatus) : WorkflowStatus :=
  { row with delayUntilMs := some delayUntilMs, updatedAt := now }

def setWorkflowDelay (now : DateTime) (id : String) (delayUntilMs : Int) : Method Bool := fun g =>
  match g.workflows.lookup id with
  | some row =>
    if row.status = .delayed then
      (.ok true, { g with workflows := g.workflows.insert id (delayRow now delayUntilMs row) })
    else (.ok false, g)
  | none => (.ok false, g)

def createApplicationVersion (now : DateTime) (versionName : String) : Method Unit := fun g =>
  (.ok (), { g with versions := g.versions.insertNew versionName ⟨versionName, now⟩ })

def setLatestApplicationVersion (now : DateTime) (versionName : String) : Method Bool := fun g =>
  match g.versions.lookup versionName with
  | some v =>
    (.ok true, { g with
      versions := g.versions.insert versionName { v with versionTimestamp := now } })
  | none => (.ok false, g)

end Durare.Memory
