import Durare.Machinery.Snapshots
import Durare.Store.Sqlite

/-!
# Store/Postgres — claims on PostgreSQL

`dequeue_workflows` of the PostgreSQL backend is one transaction of several statements, and the
statements of other sessions come between them: it stands here statement by statement.  A
transaction that enforces a limit across executors is raised to repeatable read, so that its counts
and its scan see one snapshot; a scan under a global cap does not wait for rows that others have
locked, and any other scan skips them.

The handle of the transaction is dropped on every way out that does not commit, which rolls it back.
-/

namespace Durare.Postgres

open Snapshots

/-! ## Rows -/

/-- A row of `workflow_status`, with the columns that a claim reads, writes or returns. -/
structure StatusRow where
  workflowUuid : String
  name : String
  inputs : Option String := none
  output : Option String := none
  status : Status
  error : Option String := none
  executorId : Option String := none
  applicationVersion : Option String := none
  queueName : Option String := none
  queuePartitionKey : Option String := none
  priority : Int := 0
  deduplicationId : Option String := none
  recoveryAttempts : Int := 0
  parentWorkflowId : Option String := none
  workflowTimeoutMs : Option Int := none
  workflowDeadlineEpochMs : Option Int := none
  startedAtEpochMs : Option Int := none
  rateLimited : Bool := false
  delayUntilEpochMs : Option Int := none
  completedAt : Option Int := none
  forkedFrom : Option String := none
  authenticatedUser : Option String := none
  assumedRole : Option String := none
  authenticatedRoles : Option String := none
  className : Option String := none
  configName : Option String := none
  serialization : Option String := none
  createdAt : Int
  updatedAt : Int

section

variable (X : TextCodec) (s : Serializer)

/-- Read a row, `row_to_status`.  A claim has just written the executor and the version, which would
not be read from a `NULL`. -/
def rowToStatus (now : DateTime) (r : StatusRow) : WorkflowStatus where
  id := r.workflowUuid
  name := r.name
  status := r.status
  input := (r.inputs.bind fun t => (decodeInput X s r.serialization t).toOption).getD .null
  output := (decodeOpt X s r.serialization r.output).toOption.join
  error := (decodeErrorOpt X r.serialization r.error).1
  errorInfo := (decodeErrorOpt X r.serialization r.error).2
  executorId := r.executorId.getD ""
  appVersion := r.applicationVersion.getD ""
  queueName := r.queueName
  queuePartitionKey := r.queuePartitionKey
  priority := r.priority
  dedupId := r.deduplicationId
  recoveryAttempts := r.recoveryAttempts
  parentWorkflowId := r.parentWorkflowId
  timeoutMs := r.workflowTimeoutMs
  deadlineMs := r.workflowDeadlineEpochMs
  startedAtMs := r.startedAtEpochMs
  rateLimited := r.rateLimited
  delayUntilMs := r.delayUntilEpochMs
  completedAtMs := r.completedAt
  forkedFrom := r.forkedFrom
  authenticatedUser := r.authenticatedUser
  assumedRole := r.assumedRole
  authenticatedRoles := Sqlite.decodeRoles X r.authenticatedRoles
  className := r.className
  configName := r.configName
  createdAt := Sqlite.msToDt now r.createdAt
  updatedAt := Sqlite.msToDt now r.updatedAt

/-! ## Statements -/

/-- A statement on `workflow_status`; `application_versions` is only read. -/
abbrev Stmt := Sql String StatusRow (List VersionInfo)

abbrev Db := Shared String StatusRow (List VersionInfo)

/-- The error of a statement that failed. -/
def errorOf : Failure → Error
  | .locked => .db (.database (some "55P03") none
      "could not obtain lock on row in relation \"workflow_status\"")
  | .changed => .db (.database (some "40001") none
      "could not serialize access due to concurrent update")
  | .lost => .db (.io "connection reset by peer")

/-- Statements in sequence; the first failure ends it. -/
abbrev Query (α : Type) := ExceptT Error (Proc Stmt Sql.Answer) α

/-- One statement. -/
def run (stmt : Stmt) : Query stmt.Result :=
  .mk ((Proc.ask stmt).bind fun r => .ret (r.mapError errorOf))

/-- The row is on the queue, and in the partition if there is one. -/
def onQueue (queue : String) (partition : Option String) (w : StatusRow) : Bool :=
  w.queueName = some queue && (partition.isNone || w.queuePartitionKey = partition)

/-- A start that counts against the rate limit in the window after `since`. -/
def startedSince (queue : String) (partition : Option String) (since : Int) (w : StatusRow) :
    Bool :=
  onQueue queue partition w && w.rateLimited && w.status ≠ .enqueued && w.status ≠ .delayed &&
    w.startedAtEpochMs.any (since < ·)

/-- A `PENDING` row of the queue. -/
def pendingIn (queue : String) (partition : Option String) (w : StatusRow) : Bool :=
  onQueue queue partition w && w.status = .pending

/-- Limits across executors need the counts and the scan to see one snapshot. -/
def isolate (req : DequeueRequest) : Query Unit := do
  if req.globalConcurrency.isSome || req.rateLimitMax.isSome then
    let _ ← run (.setTransaction .repeatableRead)
    return ()
  else return ()

/-- `SELECT COUNT(*)`. -/
def count (p : StatusRow → Bool) : Query Int := run (.select Int fun rows _ => rows.values.countP p)

/-- What the rate limit leaves of a budget. -/
def rateBudget (nowMs : Int) (req : DequeueRequest) (maxTasks : Int) : Query Int :=
  match req.rateLimitMax, req.rateLimitPeriodMs with
  | some limit, some periodMs => do
      let recent ← count (startedSince req.queueName req.partitionKey (i64 (nowMs - periodMs)))
      return min maxTasks (leftOf limit recent)
  | _, _ => return maxTasks

/-- What the global cap leaves of a budget. -/
def globalBudget (req : DequeueRequest) (maxTasks : Int) : Query Int :=
  match req.globalConcurrency with
  | some cap => do
      let pending ← count (pendingIn req.queueName req.partitionKey)
      return min maxTasks (leftOf cap pending)
  | none => return maxTasks

/-- The request's version is the newest registered one, or none is registered. -/
def isLatest (req : DequeueRequest) (versions : List VersionInfo) : Bool :=
  match versions.maxOn? fun v => v.versionTimestamp.nanos with
  | some latest => latest.versionName = req.appVersion
  | none => true

/-- A row this request may claim. -/
def claimable (req : DequeueRequest) (latest : Bool) (w : StatusRow) : Bool :=
  onQueue req.queueName req.partitionKey w && w.status = .enqueued &&
    (w.applicationVersion = some req.appVersion ||
      (latest && (w.applicationVersion = some "" || w.applicationVersion = none)))

/-- `ORDER BY priority ASC, created_at ASC`. -/
def claimLe (a b : StatusRow) : Bool :=
  a.priority < b.priority || (a.priority = b.priority && a.createdAt ≤ b.createdAt)

/-- What a claim does to the row. -/
def claimRow (nowMs : Int) (req : DequeueRequest) (w : StatusRow) : StatusRow :=
  { w with
    status := .pending
    executorId := some req.executorId
    applicationVersion := some req.appVersion
    startedAtEpochMs := some nowMs
    rateLimited := req.rateLimitMax.isSome
    updatedAt := nowMs
    workflowDeadlineEpochMs := w.workflowDeadlineEpochMs.or (w.workflowTimeoutMs.map (nowMs + ·)) }

/-- The statements after the budget is known. -/
def claim (now : DateTime) (req : DequeueRequest) (maxTasks : Int) :
    Query (List WorkflowStatus) := do
  if maxTasks ≤ 0 then return []
  else
    let latest ← run (.select Bool fun _ versions => isLatest req versions)
    let wait := if req.globalConcurrency.isNone then LockWait.skipLocked else .nowait
    let ids ← run (.selectForUpdate wait (claimable req latest) claimLe maxTasks.toNat)
    if ids.isEmpty then return []
    else
      let rows ← run (.update ids (·.status = .enqueued) (claimRow now.timestampMillis req))
      let _ ← run .commit
      return rows.map (rowToStatus X s now)

/-- The transaction, from its first statement to its commit. -/
def dequeueIn (now : DateTime) (req : DequeueRequest) : Query (List WorkflowStatus) := do
  isolate req
  let rated ← rateBudget now.timestampMillis req req.maxTasks
  let maxTasks ← globalBudget req rated
  claim X s now req maxTasks

/-- `now` is the clock read before the transaction begins. -/
def dequeueWorkflows (now : DateTime) (req : DequeueRequest) :
    Proc Stmt Sql.Answer (Except Error (List WorkflowStatus)) :=
  (run .begin).run.bind fun
    | .error e => .ret (.error e)
    | .ok _ => (dequeueIn X s now req).run.bind fun r =>
      -- The handle is dropped: whatever was not committed is rolled back.
      (Proc.ask .rollback).bind fun _ => .ret r

end

end Durare.Postgres
