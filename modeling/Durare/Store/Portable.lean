import Durare.Machinery.Traversal
import Durare.Store.Sqlite
import Durare.Store.Transfer

/-!
# Store/Portable — exports, and imports into SQLite and forks there

An export is a list of workflows in portable form, a root and if asked for everything below it: each
row as a JSON object keyed by column.  `Memory.exportWorkflow` and `Sqlite.exportWorkflow` are the
exporters, `Sqlite.importWorkflow` the importer of the SQLite backend and `Sqlite.forkWorkflow` its
fork; those of the in-memory backend are in Store/Transfer.

Both exporters look for the children of a workflow as long as there are any: a circle of parents
keeps them going forever, and `none` is an export that is still looking after `fuel` rounds.

The columns `application_id`, `owner_xid` and `request` and the table `workflow_events_history`,
which nothing in the library writes, are left out.
-/

namespace Durare

/-- A text column in portable form. -/
def textColumn (t : Option String) : Value := t.elim .null .string

/-- An integer column in portable form. -/
def intColumn (n : Option Int) : Value := n.elim .null fun n => .number (.int n)

/-- The ids an export is about. -/
def exportedIds (children : String → List String) (fuel : Nat) (id : String) (exportChildren :
    Bool) : Option (List String) :=
  if exportChildren then Traversal.collect children fuel [id] [id] else some [id]

/-! ## The in-memory backend -/

namespace Memory

/-- The workflows started by a workflow. -/
def childrenOf (g : Inner) (parent : String) : List String :=
  ((g.workflows.values.filter fun w => w.parentWorkflowId = some parent).map (·.id)).mergeSort
    fun a b => a ≤ b

section

variable (X : TextCodec)

/-- A payload as JSON text. -/
def payloadStr (v : Value) : Value := .string (X.toText v)

/-- `encode_roles`. -/
def encodeRoles (roles : List String) : Option String :=
  if roles.isEmpty then none else some (X.toText (.array (roles.map .string)))

def statusToMap (w : WorkflowStatus) : Columns := [
  ("workflow_uuid", .string w.id),
  ("status", .string w.status.text),
  ("name", .string w.name),
  ("authenticated_user", textColumn w.authenticatedUser),
  ("assumed_role", textColumn w.assumedRole),
  ("authenticated_roles", textColumn (encodeRoles X w.authenticatedRoles)),
  ("output", w.output.elim .null (payloadStr X)),
  ("error", textColumn w.error),
  ("executor_id", .string w.executorId),
  ("created_at", .number (.int w.createdAt.timestampMillis)),
  ("updated_at", .number (.int w.updatedAt.timestampMillis)),
  ("application_version", .string w.appVersion),
  ("application_id", .null),
  ("class_name", textColumn w.className),
  ("config_name", textColumn w.configName),
  ("recovery_attempts", .number (.int w.recoveryAttempts)),
  ("queue_name", textColumn w.queueName),
  ("workflow_timeout_ms", intColumn w.timeoutMs),
  ("workflow_deadline_epoch_ms", intColumn w.deadlineMs),
  ("started_at_epoch_ms", intColumn w.startedAtMs),
  ("deduplication_id", textColumn w.dedupId),
  ("inputs", payloadStr X w.input),
  ("priority", .number (.int w.priority)),
  ("queue_partition_key", textColumn w.queuePartitionKey),
  ("forked_from", textColumn w.forkedFrom),
  ("parent_workflow_id", textColumn w.parentWorkflowId),
  ("delay_until_epoch_ms", intColumn w.delayUntilMs),
  ("serialization", .null)]

def stepToMap (id : String) (seq : Int) (r : StepRow) : Columns := [
  ("workflow_uuid", .string id),
  ("function_id", .number (.int seq)),
  ("function_name", .string r.name),
  ("output", r.output.elim .null (payloadStr X)),
  ("error", textColumn r.error),
  ("child_workflow_id", textColumn r.childWorkflowId),
  ("started_at_epoch_ms", intColumn r.startedAtMs),
  ("completed_at_epoch_ms", intColumn r.completedAtMs)]

def eventToMap (id key : String) (value : Value) : Columns := [
  ("workflow_uuid", .string id),
  ("key", .string key),
  ("value", payloadStr X value)]

/-- An entry of a stream; the closing one is the sentinel.  There is no function id. -/
def streamToMap (id key : String) (offset : Nat) (entry : Option Value) : Columns := [
  ("workflow_uuid", .string id),
  ("key", .string key),
  ("value", entry.elim (.string STREAM_CLOSED_SENTINEL) (payloadStr X)),
  ("offset", .number (.int offset)),
  ("function_id", .null)]

/-- The entries of the streams of a workflow, with their keys and offsets. -/
def streamEntries (g : Inner) (id : String) : List (String × Nat × Option Value) :=
  let own := (g.streams.entries.filter fun e => e.1.1 = id).mergeSort fun a b => a.1.2 ≤ b.1.2
  own.flatMap fun e => e.2.zipIdx.map fun entry => (e.1.2, entry.2, entry.1)

/-- One workflow with everything that belongs to it. -/
def exportOne (g : Inner) (w : WorkflowStatus) : ExportedWorkflow where
  workflowStatus := statusToMap X w ++
    [("was_forked_from", .bool (g.workflows.values.any fun v => v.forkedFrom = some w.id))]
  operationOutputs :=
    ((g.steps.entries.filter fun e => e.1.1 = w.id).mergeSort fun a b => a.1.2 ≤ b.1.2).map
      fun e => stepToMap X w.id e.1.2 e.2
  workflowEvents :=
    ((g.events.entries.filter fun e => e.1.1 = w.id).mergeSort fun a b => a.1.2 ≤ b.1.2).map
      fun e => eventToMap X w.id e.1.2 e.2
  streams := (streamEntries g w.id).map fun e => streamToMap X w.id e.1 e.2.1 e.2.2

def exportRows (g : Inner) (ids : List String) : Except Error (List ExportedWorkflow) :=
  ids.mapM fun id => match g.workflows.lookup id with
    | some w => .ok (exportOne X g w)
    | none => .error (.nonExistentWorkflow id)

def exportWorkflow (fuel : Nat) (id : String) (exportChildren : Bool) (g : Inner) :
    Option (Except Error (List ExportedWorkflow)) :=
  (exportedIds (childrenOf g) fuel id exportChildren).map (exportRows X g)

end

end Memory

/-! ## The SQLite backend -/

namespace Sqlite

open Memory (Columns ExportedWorkflow colStr colI64 statusOf)

/-- The workflows started by a workflow. -/
def childrenOf (db : Db) (parent : String) : List String :=
  ((db.workflowStatus.values.filter fun w => w.parentWorkflowId = some parent).map
    (·.workflowUuid)).mergeSort fun a b => a ≤ b

def exportStatusMap (row : StatusRow) : Columns := [
  ("workflow_uuid", .string row.workflowUuid),
  ("status", .string row.status.text),
  ("name", .string row.name),
  ("authenticated_user", textColumn row.authenticatedUser),
  ("assumed_role", textColumn row.assumedRole),
  ("authenticated_roles", textColumn row.authenticatedRoles),
  ("output", textColumn row.output),
  ("error", textColumn row.error),
  ("executor_id", .string row.executorId),
  ("application_version", .string row.applicationVersion),
  ("application_id", .null),
  ("class_name", textColumn row.className),
  ("config_name", textColumn row.configName),
  ("queue_name", textColumn row.queueName),
  ("deduplication_id", textColumn row.deduplicationId),
  ("inputs", .string row.inputs),
  ("queue_partition_key", textColumn row.queuePartitionKey),
  ("forked_from", textColumn row.forkedFrom),
  ("parent_workflow_id", textColumn row.parentWorkflowId),
  ("serialization", textColumn row.serialization),
  ("created_at", .number (.int row.createdAt)),
  ("updated_at", .number (.int row.updatedAt)),
  ("recovery_attempts", .number (.int row.recoveryAttempts)),
  ("workflow_timeout_ms", intColumn row.workflowTimeoutMs),
  ("workflow_deadline_epoch_ms", intColumn row.workflowDeadlineEpochMs),
  ("started_at_epoch_ms", intColumn row.startedAtEpochMs),
  ("priority", .number (.int row.priority)),
  ("delay_until_epoch_ms", intColumn row.delayUntilEpochMs),
  ("was_forked_from", .bool row.wasForkedFrom)]

/-- The columns of a checkpoint; its format is not among them. -/
def exportOpMap (id : String) (seq : Int) (row : OperationRow) : Columns := [
  ("workflow_uuid", .string id),
  ("function_name", .string row.functionName),
  ("output", textColumn row.output),
  ("error", textColumn row.error),
  ("child_workflow_id", textColumn row.childWorkflowId),
  ("function_id", .number (.int seq)),
  ("started_at_epoch_ms", intColumn row.startedAtEpochMs),
  ("completed_at_epoch_ms", intColumn row.completedAtEpochMs)]

/-- The columns of an event; its format is not among them. -/
def exportEventMap (id key value : String) : Columns := [
  ("workflow_uuid", .string id),
  ("key", .string key),
  ("value", .string value)]

/-- The columns of a stream entry; its format is not among them. -/
def exportStreamMap (row : StreamRow) : Columns := [
  ("workflow_uuid", .string row.workflowUuid),
  ("key", .string row.key),
  ("value", .string row.value),
  ("offset", .number (.int row.offset)),
  ("function_id", .number (.int row.functionId))]

/-- `ORDER BY key ASC, "offset" ASC`. -/
def streamOrder (a b : StreamRow) : Bool := a.key < b.key || a.key = b.key && a.offset ≤ b.offset

/-- One workflow with everything that belongs to it. -/
def exportOne (db : Db) (row : StatusRow) : ExportedWorkflow where
  workflowStatus := exportStatusMap row
  operationOutputs :=
    ((db.operationOutputs.entries.filter fun e => e.1.1 = row.workflowUuid).mergeSort
      fun a b => a.1.2 ≤ b.1.2).map fun e => exportOpMap row.workflowUuid e.1.2 e.2
  workflowEvents :=
    ((db.workflowEvents.entries.filter fun e => e.1.1 = row.workflowUuid).mergeSort
      fun a b => a.1.2 ≤ b.1.2).map fun e => exportEventMap row.workflowUuid e.1.2 e.2.1
  streams :=
    ((db.streams.filter fun r => r.workflowUuid = row.workflowUuid).mergeSort streamOrder).map
      exportStreamMap

def exportRows (db : Db) (ids : List String) : Except Error (List ExportedWorkflow) :=
  ids.mapM fun id => match db.workflowStatus.lookup id with
    | some row => .ok (exportOne db row)
    | none => .error (.nonExistentWorkflow id)

def exportWorkflow (fuel : Nat) (id : String) (exportChildren : Bool) (db : Db) :
    Option (Except Error (List ExportedWorkflow)) :=
  (exportedIds (childrenOf db) fuel id exportChildren).map (exportRows db)

/-! ### Imports -/

/-- `NOT NULL constraint failed`. -/
def notNullFailed (column : String) : Error :=
  .db (.database (some "1299") none ("(code: 1299) NOT NULL constraint failed: " ++ column))

/-- `UNIQUE constraint failed` on a primary key. -/
def primaryKeyFailed (columns : String) : Error :=
  .db (.database (some "1555") (some .unique)
    ("(code: 1555) UNIQUE constraint failed: " ++ columns))

/-- A value for a column that must have one. -/
def notNull {α : Type} (column : String) : Option α → Except Error α
  | some a => .ok a
  | none => .error (notNullFailed column)

/-- A column as a `bool`, `col_bool`. -/
def colBool (m : Columns) (key : String) : Option Bool :=
  match Value.field m key with
  | some (.bool b) => some b
  | _ => none

/-- The row of an imported workflow.  The schema lets a row be without an id, a name, a status, an
executor, a version, a count of recoveries or an input; no exporter leaves them out, no reader reads
a row without them, and an import of one is refused here. -/
def importedStatus (s : Columns) : Except Error StatusRow := do
  let createdAt ← notNull "workflow_status.created_at" (colI64 s "created_at")
  let updatedAt ← notNull "workflow_status.updated_at" (colI64 s "updated_at")
  let priority ← notNull "workflow_status.priority" (colI64 s "priority")
  let workflowUuid ← notNull "workflow_status.workflow_uuid" (colStr s "workflow_uuid")
  let name ← notNull "workflow_status.name" (colStr s "name")
  let status ← notNull "workflow_status.status" (colStr s "status")
  let executorId ← notNull "workflow_status.executor_id" (colStr s "executor_id")
  let applicationVersion ←
    notNull "workflow_status.application_version" (colStr s "application_version")
  let recoveryAttempts ← notNull "workflow_status.recovery_attempts" (colI64 s "recovery_attempts")
  let inputs ← notNull "workflow_status.inputs" (colStr s "inputs")
  return {
    workflowUuid := workflowUuid
    name := name
    inputs := inputs
    output := colStr s "output"
    status := statusOf status
    error := colStr s "error"
    executorId := executorId
    applicationVersion := applicationVersion
    queueName := colStr s "queue_name"
    queuePartitionKey := colStr s "queue_partition_key"
    priority := priority
    deduplicationId := colStr s "deduplication_id"
    recoveryAttempts := recoveryAttempts
    parentWorkflowId := colStr s "parent_workflow_id"
    workflowTimeoutMs := colI64 s "workflow_timeout_ms"
    workflowDeadlineEpochMs := colI64 s "workflow_deadline_epoch_ms"
    startedAtEpochMs := colI64 s "started_at_epoch_ms"
    delayUntilEpochMs := colI64 s "delay_until_epoch_ms"
    forkedFrom := colStr s "forked_from"
    wasForkedFrom := (colBool s "was_forked_from").getD false
    authenticatedUser := colStr s "authenticated_user"
    assumedRole := colStr s "assumed_role"
    authenticatedRoles := colStr s "authenticated_roles"
    className := colStr s "class_name"
    configName := colStr s "config_name"
    serialization := colStr s "serialization"
    createdAt := createdAt
    updatedAt := updatedAt }

/-- `INSERT INTO workflow_status`. -/
def importStatus (db : Db) (s : Columns) : Except Error Db := do
  let row ← importedStatus s
  if (db.workflowStatus.lookup row.workflowUuid).isSome then
    .error (primaryKeyFailed "workflow_status.workflow_uuid")
  else if dedupTaken db row then .error uniqueFailed
  else .ok { db with workflowStatus := db.workflowStatus.insert row.workflowUuid row }

/-- The row of an imported checkpoint, with its key; it has no format. -/
def importedOperation (op : Columns) : Except Error ((String × Int) × OperationRow) := do
  let id ← notNull "operation_outputs.workflow_uuid" (colStr op "workflow_uuid")
  let seq ← notNull "operation_outputs.function_id" (colI64 op "function_id")
  let name ← notNull "operation_outputs.function_name" (colStr op "function_name")
  return ((id, seq), {
    functionName := name
    output := colStr op "output"
    error := colStr op "error"
    childWorkflowId := colStr op "child_workflow_id"
    startedAtEpochMs := colI64 op "started_at_epoch_ms"
    completedAtEpochMs := colI64 op "completed_at_epoch_ms" })

/-- The workflow that the foreign key names is there. -/
def referenced (db : Db) (id : String) : Except Error Unit :=
  if (db.workflowStatus.lookup id).isSome then .ok () else .error foreignKeyFailed

/-- An `INSERT` into a table whose rows belong to workflows: the key is new, the workflow there. -/
def insertRow {κ ρ : Type} [DecidableEq κ] (columns : String) (db : Db) (t : Table (String × κ) ρ)
    (row : (String × κ) × ρ) : Except Error (Table (String × κ) ρ) :=
  if (t.lookup row.1).isSome then .error (primaryKeyFailed columns)
  else do
    referenced db row.1.1
    return t.insert row.1 row.2

/-- `INSERT INTO operation_outputs`. -/
def importOperation (db : Db) (op : Columns) : Except Error Db := do
  let row ← importedOperation op
  let t ← insertRow "operation_outputs.workflow_uuid, operation_outputs.function_id" db
    db.operationOutputs row
  return { db with operationOutputs := t }

/-- The row of an imported event, with its key; it has no format. -/
def importedEvent (ev : Columns) : Except Error ((String × String) × (String × Option String)) := do
  let id ← notNull "workflow_events.workflow_uuid" (colStr ev "workflow_uuid")
  let key ← notNull "workflow_events.key" (colStr ev "key")
  let value ← notNull "workflow_events.value" (colStr ev "value")
  return ((id, key), (value, none))

/-- `INSERT INTO workflow_events`. -/
def importEvent (db : Db) (ev : Columns) : Except Error Db := do
  let row ← importedEvent ev
  let t ← insertRow "workflow_events.workflow_uuid, workflow_events.key" db db.workflowEvents row
  return { db with workflowEvents := t }

/-- An imported stream entry; it has no format. -/
def importedEntry (st : Columns) : Except Error StreamRow := do
  let id ← notNull "streams.workflow_uuid" (colStr st "workflow_uuid")
  let key ← notNull "streams.key" (colStr st "key")
  let value ← notNull "streams.value" (colStr st "value")
  let offset ← notNull "streams.offset" (colI64 st "offset")
  let functionId ← notNull "streams.function_id" (colI64 st "function_id")
  return ⟨id, key, value, offset, functionId, none⟩

/-- `INSERT INTO streams`. -/
def importEntry (db : Db) (st : Columns) : Except Error Db := do
  let row ← importedEntry st
  if db.streams.any fun r => r.workflowUuid = row.workflowUuid && r.key = row.key &&
      r.offset = row.offset then
    .error (primaryKeyFailed "streams.workflow_uuid, streams.key, streams.offset")
  else
    referenced db row.workflowUuid
    return { db with streams := db.streams ++ [row] }

/-- Insert one workflow with everything that was exported with it. -/
def importOne (db : Db) (wf : ExportedWorkflow) : Except Error Db := do
  let db ← importStatus db wf.workflowStatus
  let db ← wf.operationOutputs.foldlM importOperation db
  let db ← wf.workflowEvents.foldlM importEvent db
  wf.streams.foldlM importEntry db

/-- Mark the workflows that an imported one was forked from. -/
def markSources (workflows : List ExportedWorkflow) (db : Db) : Db :=
  let sources := workflows.filterMap fun wf => colStr wf.workflowStatus "forked_from"
  { db with workflowStatus := db.workflowStatus.mapRows fun row =>
      if row.workflowUuid ∈ sources then { row with wasForkedFrom := true } else row }

/-- All in one transaction. -/
def importWorkflow (workflows : List ExportedWorkflow) : Method Unit := fun db =>
  match workflows.foldlM importOne db with
  | .error e => (.error e, db)
  | .ok db' => (.ok (), markSources workflows db')

/-! ### Forks -/

/-- The row of a fork, `INSERT INTO workflow_status … SELECT … FROM workflow_status`. -/
def forkRow (now : DateTime) (params : Memory.ForkParams) (original : StatusRow) : StatusRow where
  workflowUuid := params.newId
  name := original.name
  inputs := original.inputs
  status := .enqueued
  executorId := ""
  applicationVersion := params.appVersion.getD original.applicationVersion
  queueName := some params.queueName
  queuePartitionKey := params.partitionKey
  priority := 0
  deduplicationId := none
  parentWorkflowId := none
  workflowTimeoutMs := none
  workflowDeadlineEpochMs := none
  delayUntilEpochMs := none
  forkedFrom := some params.originalId
  authenticatedUser := original.authenticatedUser
  assumedRole := original.assumedRole
  authenticatedRoles := original.authenticatedRoles
  className := original.className
  configName := original.configName
  serialization := original.serialization
  createdAt := now.timestampMillis
  updatedAt := now.timestampMillis

/-- The checkpoints a fork takes over; their times stay behind. -/
def copiedOperations (params : Memory.ForkParams) (t : Table (String × Int) OperationRow) :
    List ((String × Int) × OperationRow) :=
  (t.entries.filter fun e => e.1.1 = params.originalId && e.1.2 < params.startStep).map fun e =>
    ((params.newId, e.1.2), { e.2 with startedAtEpochMs := none, completedAtEpochMs := none })

/-- The original of a fork is marked. -/
def markForked (id : String) (t : Table String StatusRow) : Table String StatusRow :=
  t.modify id fun row => { row with wasForkedFrom := true }

/-- All in one transaction. -/
def forkWorkflow (now : DateTime) (params : Memory.ForkParams) : Method Unit := fun db =>
  match db.workflowStatus.lookup params.originalId with
  | none => (.error (.nonExistentWorkflow params.originalId), db)
  | some original =>
    if (db.workflowStatus.lookup params.newId).isSome then
      (.error (primaryKeyFailed "workflow_status.workflow_uuid"), db)
    else
      let rows := db.workflowStatus.insert params.newId (forkRow now params original)
      let db₁ := { db with workflowStatus := markForked params.originalId rows }
      let copies := if 0 < params.startStep then copiedOperations params db.operationOutputs else []
      match copies.foldlM (insertRow
          "operation_outputs.workflow_uuid, operation_outputs.function_id" db₁)
          db.operationOutputs with
      | .error e => (.error e, db)
      | .ok t => (.ok (), { db₁ with operationOutputs := t })

/-! ### Streams -/

section

variable (X : TextCodec) (s : Serializer)

/-- The values up to the closing entry, and whether there is one. -/
def decodeUntilClosed : List StreamRow → Except Error (List Value × Bool)
  | [] => .ok ([], false)
  | row :: rows =>
    if row.value = STREAM_CLOSED_SENTINEL then .ok ([], true)
    else do
      let v ← decode X s row.serialization row.value
      let (vs, closed) ← decodeUntilClosed rows
      return (v :: vs, closed)

def readStream (workflowId key : String) (fromOffset : Int) : Method (List Value × Bool) :=
  fun db =>
    let rows := (db.streams.filter fun r => r.workflowUuid = workflowId && r.key = key &&
      fromOffset ≤ r.offset).mergeSort fun a b => a.offset ≤ b.offset
    (decodeUntilClosed X s rows, db)

end

end Sqlite

end Durare
