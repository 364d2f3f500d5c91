import Durare.Machinery.Table
import Durare.Store.Rows

/-!
# Store/Sqlite — the SQLite backend

`Db` is the database and each trait method a function on it: a method that runs several statements
does so in one transaction, and transactions are serializable.  Values are kept as text, tagged with
the serializer that wrote them.  Statements stand as their effect on the tables — `ON CONFLICT DO
NOTHING` is `insertNew`, the foreign keys and the unique index on live deduplication ids are checked
where a statement can violate them.

The tables of the application, which transactional steps write to, are kept as the list of the
batches committed to them.
-/

namespace Durare.Sqlite

/-! ## Tables -/

/-- A row of `workflow_status`. -/
structure StatusRow where
  workflowUuid : String
  name : String
  inputs : String
  output : Option String := none
  status : Status
  error : Option String := none
  executorId : String
  applicationVersion : String
  queueName : Option String
  queuePartitionKey : Option String
  priority : Int
  deduplicationId : Option String
  recoveryAttempts : Int := 0
  parentWorkflowId : Option String
  workflowTimeoutMs : Option Int
  workflowDeadlineEpochMs : Option Int
  startedAtEpochMs : Option Int := none
  rateLimited : Bool := false
  delayUntilEpochMs : Option Int
  completedAt : Option Int := none
  forkedFrom : Option String := none
  wasForkedFrom : Bool := false
  authenticatedUser : Option String
  assumedRole : Option String
  authenticatedRoles : Option String
  className : Option String
  configName : Option String
  serialization : Option String
  createdAt : Int
  updatedAt : Int

/-- A row of `notifications`. -/
structure NotificationRow where
  messageUuid : String
  destinationUuid : String
  topic : String
  message : String
  serialization : Option String
  consumed : Bool := false
  createdAtEpochMs : Int

/-- A row of `streams`. -/
structure StreamRow where
  workflowUuid : String
  key : String
  value : String
  offset : Int
  functionId : Int
  serialization : Option String

/-- The writes a transactional step committed to the tables of the application. -/
structure Batch where
  workflowUuid : String
  functionId : Int
  statements : List String
  deriving DecidableEq, Repr

/-- The database. -/
structure Db where
  workflowStatus : Table String StatusRow := ∅
  operationOutputs : Table (String × Int) OperationRow := ∅
  notifications : List NotificationRow := []
  workflowEvents : Table (String × String) (String × Option String) := ∅
  streams : List StreamRow := []
  applicationVersions : Table String VersionInfo := ∅
  application : List Batch := []

/-- A method of the backend: an answer and the database it leaves. -/
abbrev Method (α : Type) := Db → Except Error α × Db

/-- `FOREIGN KEY constraint failed`. -/
def foreignKeyFailed : Error :=
  .db (.database (some "787") (some .foreignKey) "(code: 787) FOREIGN KEY constraint failed")

/-- `UNIQUE constraint failed` on the deduplication index. -/
def uniqueFailed : Error :=
  .db (.database (some "2067") (some .unique) ("(code: 2067) UNIQUE constraint failed: " ++
    "workflow_status.queue_name, workflow_status.deduplication_id"))

/-- The row violates the unique index on `(queue_name, deduplication_id)`. -/
def dedupTaken (db : Db) (row : StatusRow) : Bool :=
  row.queueName.isSome && row.deduplicationId.isSome && db.workflowStatus.values.any fun w =>
    w.workflowUuid ≠ row.workflowUuid && w.queueName = row.queueName &&
      w.deduplicationId = row.deduplicationId

/-- `INSERT INTO operation_outputs … ON CONFLICT DO NOTHING`. -/
def insertOperation (workflowId : String) (seq : Int) (row : OperationRow) (db : Db) :
    Except Error Db :=
  if (db.operationOutputs.lookup (workflowId, seq)).isSome then .ok db
  else if (db.workflowStatus.lookup workflowId).isNone then .error foreignKeyFailed
  else .ok { db with operationOutputs := db.operationOutputs.insert (workflowId, seq) row }

/-- An insert that succeeds is first-writer-wins. -/
theorem insertOperation_ok {workflowId : String} {seq : Int} {row : OperationRow} {db db' : Db}
    (h : insertOperation workflowId seq row db = .ok db') :
    db' = { db with operationOutputs := db.operationOutputs.insertNew (workflowId, seq) row } := by
  unfold insertOperation at h
  split at h
  · next hsome =>
      obtain ⟨old, hold⟩ := Option.isSome_iff_exists.mp hsome
      rw [AList.insertNew_of_some hold]
      exact (Except.ok.inj h).symm
  · next hnone =>
      rw [AList.insertNew_of_none (Option.not_isSome_iff_eq_none.mp hnone)]
      split at h
      · cases h
      · exact (Except.ok.inj h).symm

section

variable (X : TextCodec) (s : Serializer)

/-! ## Workflow rows -/

/-- `ms_to_dt`: an instant outside the range of `chrono` reads as now. -/
def msToDt (now : DateTime) (ms : Int) : DateTime :=
  (DateTime.fromTimestampMillis ms).getD now

/-- `encode_roles`. -/
def encodeRoles (roles : List String) : Option String :=
  if roles.isEmpty then none else some (X.toText (.array (roles.map .string)))

/-- A JSON array of strings. -/
def asStrings : Value → Option (List String)
  | .array vs => vs.mapM fun v => match v with
    | .string t => some t
    | _ => none
  | _ => none

/-- `decode_roles`: anything that is not an array of strings reads as no roles. -/
def decodeRoles (stored : Option String) : List String :=
  (stored.bind fun t => (X.fromText t).toOption.bind asStrings).getD []

/-- Read a row; an input or output that does not decode reads as absent, `row_to_status`. -/
def rowToStatus (now : DateTime) (r : StatusRow) : WorkflowStatus where
  id := r.workflowUuid
  name := r.name
  status := r.status
  input := (decodeInput X s r.serialization r.inputs).toOption.getD .null
  output := (decodeOpt X s r.serialization r.output).toOption.join
  error := (decodeErrorOpt X r.serialization r.error).1
  errorInfo := (decodeErrorOpt X r.serialization r.error).2
  executorId := r.executorId
  appVersion := r.applicationVersion
  queueName := r.queueName
  queuePartitionKey := r.queuePartitionKey
  priority := r.priority
  dedupId := r.deduplicationId
  recoveryAttempts := r.recoveryAttempts
  parentWorkflowId := r.parentWorkflowId
  timeoutMs := r.workflowTimeoutMs
  deadlineMs := r.workflowDeadlineEpochMs
  startedAtMs := r.startedAtEpochMs
  rateLimited := r.rateLimited
  delayUntilMs := r.delayUntilEpochMs
  completedAtMs := r.completedAt
  forkedFrom := r.forkedFrom
  authenticatedUser := r.authenticatedUser
  assumedRole := r.assumedRole
  authenticatedRoles := decodeRoles X r.authenticatedRoles
  className := r.className
  configName := r.configName
  createdAt := msToDt now r.createdAt
  updatedAt := msToDt now r.updatedAt

/-- The row an insert writes. -/
def insertedRow (st : WorkflowStatus) (inputs : String) : StatusRow where
  workflowUuid := st.id
  name := st.name
  inputs := inputs
  status := st.status
  executorId := st.executorId
  applicationVersion := st.appVersion
  queueName := st.queueName
  queuePartitionKey := st.queuePartitionKey
  priority := st.priority
  deduplicationId := st.dedupId
  parentWorkflowId := st.parentWorkflowId
  workflowTimeoutMs := st.timeoutMs
  workflowDeadlineEpochMs := st.deadlineMs
  delayUntilEpochMs := st.delayUntilMs
  authenticatedUser := st.authenticatedUser
  assumedRole := st.assumedRole
  authenticatedRoles := encodeRoles X st.authenticatedRoles
  className := st.className
  configName := st.configName
  serialization := some s.name
  createdAt := st.createdAt.timestampMillis
  updatedAt := st.updatedAt.timestampMillis

def insertWorkflowStatus (now : DateTime) (st : WorkflowStatus) : Method (WorkflowStatus × Bool) :=
  fun db => match encodeInput X s st.input with
    | .error e => (.error e, db)
    | .ok inputs => match db.workflowStatus.lookup st.id with
      | some row => (.ok (rowToStatus X s now row, false), db)
      | none =>
        let row := insertedRow X s st inputs
        -- A unique violation is reported as `QueueDeduplicated`.
        if dedupTaken db row then
          (.error (.queueDeduplicated (st.queueName.getD "") (st.dedupId.getD "")), db)
        else (.ok (rowToStatus X s now row, true),
          { db with workflowStatus := db.workflowStatus.insert st.id row })

def getDeduplicatedWorkflow (queueName dedupId : String) : Method (Option String) := fun db =>
  (.ok ((db.workflowStatus.values.find? fun w =>
    w.queueName = some queueName && w.deduplicationId = some dedupId).map (·.workflowUuid)), db)

def getWorkflowStatus (now : DateTime) (id : String) : Method (Option WorkflowStatus) := fun db =>
  (.ok ((db.workflowStatus.lookup id).map (rowToStatus X s now)), db)

/-- What a status write does to the row it finds. -/
def applyStatus (now : DateTime) (status : Status) (output error : Option String)
    (row : StatusRow) : StatusRow :=
  { row with
    status := status
    output := output.or row.output
    error := error.or row.error
    completedAt := if status.isTerminal then some now.timestampMillis else row.completedAt
    deduplicationId := if status.isTerminal then none else row.deduplicationId
    updatedAt := now.timestampMillis }

def setWorkflowStatus (now : DateTime) (id : String) (status : Status) (output : Option Value)
    (error : Option String) : Method Unit := fun db =>
  match (output.map (s.encode X)).sequence with
  | .error e => (.error e, db)
  | .ok text => match db.workflowStatus.lookup id with
    | some row =>
      if (status = .success ∨ status = .error) ∧ row.status = .cancelled then
        (.error (.cancelled id), db)
      else (.ok (), { db with workflowStatus :=
        db.workflowStatus.insert id (applyStatus now status text error row) })
    | none => (.ok (), db)

/-! ## Step rows -/

def getStepResult (workflowId : String) (seq : Int) : Method (Option RecordedStep) := fun db =>
  match db.operationOutputs.lookup (workflowId, seq) with
  | some row => ((stepOutcomeFrom X s row).map fun o => o.map fun so => ⟨row.functionName, so⟩, db)
  | none => (.ok none, db)

/-- The row a step result is recorded as. -/
def resultRow (now : DateTime) (name : String) (output error : Option String)
    (startedAtMs : Option Int) : OperationRow where
  functionName := name
  output := output
  error := error
  serialization := some s.name
  startedAtEpochMs := startedAtMs
  completedAtEpochMs := some now.timestampMillis

def recordStepResult (now : DateTime) (workflowId : String) (seq : Int) (name : String)
    (value : Value) (error : Option String) (startedAtMs : Option Int) : Method StepOutcome :=
  fun db =>
    let output : Except Error (Option String) :=
      if error.isSome then .ok none else (s.encode X value).map some
    match output with
    | .error e => (.error e, db)
    | .ok text =>
      let row := resultRow s now name text error startedAtMs
      match insertOperation workflowId seq row db with
      | .error e => (.error e, db)
      | .ok db' =>
        let canonical := (db.operationOutputs.lookup (workflowId, seq)).getD row
        ((stepOutcomeFrom X s canonical).map fun o => o.getD (.output .null), db')

/-- The methods whose whole work is one insert into `operation_outputs`. -/
def insertOnly (workflowId : String) (seq : Int) (row : OperationRow) : Method Unit := fun db =>
  match insertOperation workflowId seq row db with
  | .error e => (.error e, db)
  | .ok db' => (.ok (), db')

def recordChildWorkflow (parentId : String) (seq : Int) (name childId : String) : Method Unit :=
  insertOnly parentId seq { functionName := name, childWorkflowId := some childId }

def checkChildWorkflow (parentId : String) (seq : Int) : Method (Option (String × String)) :=
  fun db => (.ok ((db.operationOutputs.lookup (parentId, seq)).bind fun r =>
    r.childWorkflowId.map fun id => (id, r.functionName)), db)

def getStepName (workflowId : String) (seq : Int) : Method (Option String) := fun db =>
  (.ok ((db.operationOutputs.lookup (workflowId, seq)).map (·.functionName)), db)

def recordPatch (workflowId : String) (seq : Int) (name : String) : Method Unit :=
  insertOnly workflowId seq { functionName := name }

/-! ## Messages, events, streams -/

def insertNotification (now : DateTime) (uuid : String) (destinationId topic : String)
    (message : Value) (idempotencyKey : Option String) : Method Unit := fun db =>
  let messageUuid := match idempotencyKey with
    | some k => k ++ "::" ++ destinationId
    | none => uuid
  match s.encode X message with
  | .error e => (.error e, db)
  | .ok text =>
    if db.notifications.any (·.messageUuid = messageUuid) then (.ok (), db)
    else if (db.workflowStatus.lookup destinationId).isNone then
      (.error (.nonExistentWorkflow destinationId), db)
    else
      let row : NotificationRow :=
        { messageUuid := messageUuid, destinationUuid := destinationId, topic := topic,
          message := text, serialization := some s.name,
          createdAtEpochMs := now.timestampMillis }
      (.ok (), { db with notifications := db.notifications ++ [row] })

/-- The oldest unconsumed message of a mailbox, with its place in the table. -/
def oldest (notifications : List NotificationRow) (workflowId topic : String) :
    Option (NotificationRow × Nat) :=
  (notifications.zipIdx.filter fun e =>
    !e.1.consumed && e.1.destinationUuid = workflowId && e.1.topic = topic).minOn?
      fun e => e.1.createdAtEpochMs

/-- Mark the message at place `i` consumed. -/
def markConsumed (notifications : List NotificationRow) (i : Nat) : List NotificationRow :=
  notifications.modify i fun n => { n with consumed := true }

def consumeNotification (workflowId topic : String) (seq : Int) (stepName : String) :
    Method (Option Value) := fun db =>
  match oldest db.notifications workflowId topic with
  | none => (.ok none, db)
  | some (n, i) =>
    let row : OperationRow :=
      { functionName := stepName, output := some n.message, serialization := n.serialization }
    match insertOperation workflowId seq row db with
    | .error e => (.error e, db)
    | .ok db' =>
      -- The message claimed here is returned, whatever row stands at `seq`.
      ((decode X s n.serialization n.message).map some,
        { db' with notifications := markConsumed db.notifications i })

def upsertEvent (workflowId key : String) (value : Value) : Method Unit := fun db =>
  match s.encode X value with
  | .error e => (.error e, db)
  | .ok text =>
    if (db.workflowStatus.lookup workflowId).isNone then (.error foreignKeyFailed, db)
    else (.ok (), { db with workflowEvents :=
      db.workflowEvents.insert (workflowId, key) (text, some s.name) })

def getEventValue (workflowId key : String) : Method (Option Value) := fun db =>
  match db.workflowEvents.lookup (workflowId, key) with
  | some (text, format) => ((decode X s format text).map some, db)
  | none => (.ok none, db)

def STREAM_CLOSED_SENTINEL : String := "__DBOS_STREAM_CLOSED__"

/-- The offset after the last one of a stream. -/
def nextOffset (rows : List StreamRow) : Int := rows.foldl (fun m r => max m (r.offset + 1)) 0

def writeStream (workflowId key : String) (value : Option Value) (functionId : Int) :
    Method Unit := fun db =>
  let stored : Except Error (String × Option String) := match value with
    | some v => (s.encode X v).map fun text => (text, some s.name)
    | none => .ok (STREAM_CLOSED_SENTINEL, none)
  match stored with
  | .error e => (.error e, db)
  | .ok (text, format) =>
    let entries := db.streams.filter fun r => r.workflowUuid = workflowId && r.key = key
    if entries.any (·.value = STREAM_CLOSED_SENTINEL) then
      (.error (.app ("stream `" ++ key ++ "` is already closed")), db)
    else if (db.workflowStatus.lookup workflowId).isNone then
      (.error (.nonExistentWorkflow workflowId), db)
    else (.ok (), { db with streams := db.streams ++
      [⟨workflowId, key, text, nextOffset entries, functionId, format⟩] })

/-! ## Cancel, resume, recover -/

/-- A row that is not completed or cancelled yet is cancelled. -/
def cancelRow (now : DateTime) (row : StatusRow) : StatusRow :=
  if row.status = .success ∨ row.status = .error ∨ row.status = .cancelled then row
  else { row with
    status := .cancelled
    completedAt := some now.timestampMillis
    startedAtEpochMs := none
    queueName := none
    deduplicationId := none
    updatedAt := now.timestampMillis }

def cancelWorkflow (now : DateTime) (id : String) : Method Unit := fun db =>
  (.ok (), { db with workflowStatus := db.workflowStatus.modify id (cancelRow now) })

def cancelWorkflows (now : DateTime) (ids : List String) : Method Unit := fun db =>
  let table := db.workflowStatus.mapRows fun row =>
    if ids.contains row.workflowUuid then cancelRow now row else row
  (.ok (), { db with workflowStatus := table })

/-- Only a completed row cannot be resumed. -/
def resumable (row : StatusRow) : Bool := row.status ≠ .success && row.status ≠ .error

/-- What a resume does to the row. -/
def resumeRow (now : DateTime) (row : StatusRow) : StatusRow :=
  { row with
    status := .pending
    recoveryAttempts := 0
    workflowDeadlineEpochMs := none
    deduplicationId := none
    startedAtEpochMs := none
    completedAt := none
    updatedAt := now.timestampMillis }

def resumeWorkflow (now : DateTime) (id : String) : Method Bool := fun db =>
  match db.workflowStatus.lookup id with
  | some row =>
    if resumable row then
      (.ok true, { db with workflowStatus := db.workflowStatus.insert id (resumeRow now row) })
    else (.ok false, db)
  | none => (.ok false, db)

def resumeWorkflows (now : DateTime) (ids : List String) : Method (List String) := fun db =>
  let hit (row : StatusRow) : Bool := ids.contains row.workflowUuid && resumable row
  let table := db.workflowStatus.mapRows fun row => if hit row then resumeRow now row else row
  (.ok ((db.workflowStatus.values.filter hit).map (·.workflowUuid)),
    { db with workflowStatus := table })

/-- What putting a row back on a queue does to it. -/
def enqueueRow (now : DateTime) (queue : String) (row : StatusRow) : StatusRow :=
  { row with
    status := .enqueued
    queueName := some queue
    executorId := ""
    startedAtEpochMs := none
    updatedAt := now.timestampMillis }

def enqueueExisting (now : DateTime) (id queue : String) : Method Unit := fun db =>
  match db.workflowStatus.lookup id with
  | some row =>
    let row' := enqueueRow now queue row
    if dedupTaken db row' then (.error uniqueFailed, db)
    else (.ok (), { db with workflowStatus := db.workflowStatus.insert id row' })
  | none => (.ok (), db)

/-- Count a recovery, and park the row once the cap is passed. -/
def bumpRow (now : DateTime) (max : Int) (row : StatusRow) : StatusRow :=
  let attempts := row.recoveryAttempts + 1
  let counted := { row with recoveryAttempts := attempts, updatedAt := now.timestampMillis }
  if max < attempts then
    { counted with status := .maxRecoveryAttemptsExceeded, deduplicationId := none }
  else counted

def bumpRecoveryAttempts (now : DateTime) (id : String) (max : Int) : Method Int := fun db =>
  match db.workflowStatus.lookup id with
  | some row => (.ok (row.recoveryAttempts + 1),
      { db with workflowStatus := db.workflowStatus.insert id (bumpRow now max row) })
  | none => (.ok 0, db)

/-! ## Queues -/

/-- The optional partition clause. -/
def inPartition (req : DequeueRequest) (w : StatusRow) : Bool :=
  req.partitionKey.isNone || w.queuePartitionKey = req.partitionKey

/-- How many rows this request may claim. -/
def claimBudget (now : DateTime) (req : DequeueRequest) (db : Db) : Int :=
  let onQueue (w : StatusRow) : Bool := w.queueName = some req.queueName && inPartition req w
  req.budget now.timestampMillis
    (fun cutoff => db.workflowStatus.values.countP fun w => onQueue w && w.rateLimited &&
      w.status ≠ .enqueued && w.status ≠ .delayed && w.startedAtEpochMs.any (cutoff < ·))
    (db.workflowStatus.values.countP fun w => onQueue w && w.status = .pending)

/-- The request's version is the newest registered one, or none is registered. -/
def isLatest (req : DequeueRequest) (db : Db) : Bool :=
  match db.applicationVersions.values.maxOn? fun v => v.versionTimestamp.nanos with
  | some latest => latest.versionName = req.appVersion
  | none => true

/-- A row this request may claim. -/
def claimable (req : DequeueRequest) (latest : Bool) (w : StatusRow) : Bool :=
  w.queueName = some req.queueName && w.status = .enqueued &&
    (w.applicationVersion = req.appVersion || (latest && w.applicationVersion = "")) &&
    inPartition req w

/-- What a claim does to the row. -/
def claimRow (now : DateTime) (req : DequeueRequest) (w : StatusRow) : StatusRow :=
  { w with
    status := .pending
    executorId := req.executorId
    applicationVersion := req.appVersion
    startedAtEpochMs := some now.timestampMillis
    rateLimited := req.rateLimitMax.isSome
    updatedAt := now.timestampMillis
    workflowDeadlineEpochMs :=
      w.workflowDeadlineEpochMs.or (w.workflowTimeoutMs.map (now.timestampMillis + ·)) }

/-- The ids a request claims: `ORDER BY priority ASC, created_at ASC LIMIT max_tasks`. -/
def claimIds (now : DateTime) (req : DequeueRequest) (db : Db) : List String :=
  let rows := (db.workflowStatus.values.filter (claimable req (isLatest req db))).mergeSort
    fun a b => a.priority < b.priority || (a.priority = b.priority && a.createdAt ≤ b.createdAt)
  (rows.take (claimBudget now req db).toNat).map (·.workflowUuid)

def dequeueWorkflows (now : DateTime) (req : DequeueRequest) : Method (List WorkflowStatus) :=
  fun db =>
    let ids := claimIds now req db
    let table := ids.foldl (fun t id => t.modify id (claimRow now req)) db.workflowStatus
    (.ok (ids.filterMap fun id => (table.lookup id).map (rowToStatus X s now)),
      { db with workflowStatus := table })

def transitionDelayedWorkflows (nowMs : Int) : Method Nat := fun db =>
  let due (w : StatusRow) : Bool := w.status = .delayed && w.delayUntilEpochMs.any (· ≤ nowMs)
  let table := db.workflowStatus.mapRows fun w =>
    if due w then { w with status := .enqueued, delayUntilEpochMs := none, updatedAt := nowMs }
    else w
  (.ok (db.workflowStatus.values.countP due), { db with workflowStatus := table })

def queuePartitions (queueName : String) : Method (List String) := fun db =>
  (.ok ((db.workflowStatus.values.filter fun w =>
    w.queueName = some queueName && w.status = .enqueued).filterMap (·.queuePartitionKey)).dedup,
    db)

/-! ## Listing and deleting -/

/-- `LIKE`: `%` stands for any text, `_` for any character, letters of ASCII match in either
case. -/
def like : List Char → List Char → Bool
  | [], text => text.isEmpty
  | '%' :: pattern, [] => like pattern []
  | '%' :: pattern, c :: text => like pattern (c :: text) || like ('%' :: pattern) text
  | '_' :: pattern, _ :: text => like pattern text
  | p :: pattern, c :: text => p.toLower = c.toLower && like pattern text
  | _ :: _, [] => false

/-- `col IN (…)`, left out for an empty list. -/
def anyOf {α : Type} [DecidableEq α] (allowed : List α) (a : α) : Bool :=
  allowed.isEmpty || allowed.contains a

/-- The same for a nullable column. -/
def anyOfOpt {α : Type} [DecidableEq α] (allowed : List α) (a : Option α) : Bool :=
  allowed.isEmpty || a.any fun x => allowed.contains x

/-- The row passes the `WHERE` clause of `push_list_filters`. -/
def passes (filter : ListFilter) (w : StatusRow) : Bool :=
  anyOf filter.workflowIds w.workflowUuid &&
  anyOf filter.name w.name &&
  anyOf filter.status w.status &&
  anyOfOpt filter.queueName w.queueName &&
  anyOf filter.appVersion w.applicationVersion &&
  anyOf filter.executorIds w.executorId &&
  anyOfOpt filter.authenticatedUsers w.authenticatedUser &&
  anyOfOpt filter.forkedFrom w.forkedFrom &&
  anyOfOpt filter.parentWorkflowIds w.parentWorkflowId &&
  (filter.workflowIdPrefix.isEmpty || filter.workflowIdPrefix.any fun p =>
    like (p.toList ++ ['%']) w.workflowUuid.toList) &&
  filter.wasForkedFrom.all (fun wf => w.wasForkedFrom == wf) &&
  filter.startTimeMs.all (fun t => t ≤ w.createdAt) &&
  filter.endTimeMs.all (fun t => w.createdAt ≤ t) &&
  filter.completedAfterMs.all (fun t => w.completedAt.any (t ≤ ·)) &&
  filter.completedBeforeMs.all (fun t => w.completedAt.any (· ≤ t)) &&
  filter.dequeuedAfterMs.all (fun t => w.startedAtEpochMs.any (t ≤ ·)) &&
  filter.dequeuedBeforeMs.all (fun t => w.startedAtEpochMs.any (· ≤ t)) &&
  filter.hasParent.all (fun hp => w.parentWorkflowId.isSome == hp) &&
  (!filter.queuesOnly || w.queueName.isSome)

/-- `LIMIT`: a negative bound is no bound. -/
def limitRows {α : Type} (limit : Option Int) (rows : List α) : List α :=
  match limit with
  | some n => if n < 0 then rows else rows.take n.toNat
  | none => rows

/-- Blank the columns the caller did not ask to load, `list_select_cols`. -/
def project (filter : ListFilter) (w : WorkflowStatus) : WorkflowStatus :=
  { w with
    input := if filter.loadInput then w.input else .null
    output := if filter.loadOutput then w.output else none }

def listWorkflows (now : DateTime) (filter : ListFilter) : Method (List WorkflowStatus) :=
  fun db =>
    let rows := (db.workflowStatus.values.filter (passes filter)).mergeSort fun a b =>
      if filter.sortDesc then b.createdAt ≤ a.createdAt else a.createdAt ≤ b.createdAt
    match filter.limit, filter.offset with
    -- `OFFSET` is not a clause of its own.
    | none, some _ => (.error (.db (.database (some "1") none
        "(code: 1) near \"OFFSET\": syntax error")), db)
    | limit, offset =>
      let dropped := rows.drop (offset.getD 0).toNat
      (.ok ((limitRows limit dropped).map fun r => project filter (rowToStatus X s now r)), db)

/-- One round of the recursive query: the targets and the children of targets. -/
def addChildren (db : Db) (targets : List String) : List String :=
  targets ++ ((db.workflowStatus.values.filter fun w =>
    w.parentWorkflowId.any targets.contains && !targets.contains w.workflowUuid).map
      (·.workflowUuid))

/-- Delete workflow rows; what refers to them goes too, `ON DELETE CASCADE`.  Every round of the
recursive query that adds anything adds a row, so the number of rows bounds the rounds. -/
def deleteWorkflows (ids : List String) (deleteChildren : Bool) : Method Unit := fun db =>
  let existing := ids.filter fun id => (db.workflowStatus.lookup id).isSome
  let targets :=
    if deleteChildren then Nat.repeat (addChildren db) db.workflowStatus.entries.length existing
    else existing
  (.ok (), { db with
    workflowStatus := db.workflowStatus.retain fun id => !targets.contains id
    operationOutputs := db.operationOutputs.retain fun k => !targets.contains k.1
    notifications := db.notifications.filter fun n => !targets.contains n.destinationUuid
    workflowEvents := db.workflowEvents.retain fun k => !targets.contains k.1
    streams := db.streams.filter fun r => !targets.contains r.workflowUuid })

end

end Durare.Sqlite
