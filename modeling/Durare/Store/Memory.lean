import Durare.Machinery.Table
import Durare.Store.Rows

/-!
# Store/Memory — the in-memory backend

`Inner` is the state behind the lock of `InMemoryProvider`, and each trait method is a function on
it: the lock is held for the whole method, so a method is one atomic step.  A method gets the clock
reading `now` where the source reads the clock, and a fresh `uuid` where it draws one.

Hash maps are `Table`s.  The schedules and the queue registry kept next to these tables are left
out: none of the methods here reads them.
-/

namespace Durare.Memory

/-- A message in a mailbox. -/
structure NotificationRow where
  messageUuid : String
  destinationId : String
  topic : String
  message : Value
  consumed : Bool
  createdAtMs : Int

/-- A recorded operation: a step result, a child link, or a patch marker. -/
structure StepRow where
  name : String
  output : Option Value := none
  error : Option String := none
  childWorkflowId : Option String := none
  startedAtMs : Option Int := none
  completedAtMs : Option Int := none

/-- The state behind the lock. -/
structure Inner where
  workflows : Table String WorkflowStatus := ∅
  steps : Table (String × Int) StepRow := ∅
  notifications : List NotificationRow := []
  events : Table (String × String) Value := ∅
  streams : Table (String × String) (List (Option Value)) := ∅
  versions : Table String VersionInfo := ∅

/-- A method of the backend: an answer and the state it leaves. -/
abbrev Method (α : Type) := Inner → Except Error α × Inner

/-- The outcome a row stands for, `step_row_outcome`. -/
def stepRowOutcome (r : StepRow) : StepOutcome :=
  match r.error with
  | some e => .failure e none
  | none => .output (r.output.getD .null)

/-! ## Workflow rows -/

def insertWorkflowStatus (status : WorkflowStatus) : Method (WorkflowStatus × Bool) := fun g =>
  match status.queueName, status.dedupId with
  | some queue, some dedup =>
    if g.workflows.values.any fun w => w.id ≠ status.id && w.queueName = some queue &&
        w.dedupId = some dedup then
      (.error (.queueDeduplicated queue dedup), g)
    else insert g
  | _, _ => insert g
where
  /-- `entry(id).or_insert(status)` -/
  insert (g : Inner) : Except Error (WorkflowStatus × Bool) × Inner :=
    match g.workflows.lookup status.id with
    | some row => (.ok (row, false), g)
    | none => (.ok (status, true), { g with workflows := g.workflows.insert status.id status })

/-- Another workflow than `id` holds the deduplication slot. -/
def SlotHeld (id queue dedup : String) (g : Inner) : Prop :=
  ∃ w ∈ g.workflows.values, w.id ≠ id ∧ w.queueName = some queue ∧ w.dedupId = some dedup

/-- The slot a new row asks for is held. -/
def SlotTaken (status : WorkflowStatus) (g : Inner) : Prop :=
  ∃ queue dedup, status.queueName = some queue ∧ status.dedupId = some dedup ∧
    SlotHeld status.id queue dedup g

/-- **An insert by its cases**: the slot is looked at first, the id second. -/
theorem insertWorkflowStatus_cases (status : WorkflowStatus) (g : Inner) :
    (∃ queue dedup, status.queueName = some queue ∧ status.dedupId = some dedup ∧
      SlotHeld status.id queue dedup g ∧
      insertWorkflowStatus status g = (.error (.queueDeduplicated queue dedup), g)) ∨
    ¬SlotTaken status g ∧ insertWorkflowStatus status g = insertWorkflowStatus.insert status g := by
  unfold insertWorkflowStatus
  split
  · next queue dedup hqueue hdedup =>
      have hheld : (g.workflows.values.any fun w => w.id ≠ status.id && w.queueName = some queue &&
          w.dedupId = some dedup) ↔ SlotHeld status.id queue dedup g := by
        simp [SlotHeld, and_assoc]
      split
      · next h => exact .inl ⟨queue, dedup, hqueue, hdedup, hheld.mp h, rfl⟩
      · next h =>
          refine .inr ⟨?_, rfl⟩
          rintro ⟨queue', dedup', hqueue', hdedup', htaken⟩
          cases hqueue.symm.trans hqueue'
          cases hdedup.symm.trans hdedup'
          exact h (hheld.mpr htaken)
  · next hnone => exact .inr ⟨fun ⟨q, d, hq, hd, _⟩ => hnone q d hq hd, rfl⟩

def getDeduplicatedWorkflow (queueName dedupId : String) : Method (Option String) := fun g =>
  (.ok ((g.workflows.values.find? fun w =>
    w.queueName = some queueName && w.dedupId = some dedupId).map (·.id)), g)

def getWorkflowStatus (id : String) : Method (Option WorkflowStatus) := fun g =>
  (.ok (g.workflows.lookup id), g)

/-- What a status write does to the row it finds. -/
def applyStatus (now : DateTime) (status : Status) (output : Option Value) (error : Option String)
    (row : WorkflowStatus) : WorkflowStatus :=
  { row with
    status := status
    output := output.or row.output
    error := error.or row.error
    completedAtMs := if status.isTerminal then some now.timestampMillis else row.completedAtMs
    dedupId := if status.isTerminal then none else row.dedupId
    updatedAt := now }

def setWorkflowStatus (now : DateTime) (id : String) (status : Status) (output : Option Value)
    (error : Option String) : Method Unit := fun g =>
  match g.workflows.lookup id with
  | some row =>
    -- Only a completion is refused, and only on a cancelled row.
    if (status = .success ∨ status = .error) ∧ row.status = .cancelled then
      (.error (.cancelled id), g)
    else
      (.ok (), { g with workflows :=
        g.workflows.insert id (applyStatus now status output error row) })
  | none => (.ok (), g)

/-! ## Step rows -/

def getStepResult (workflowId : String) (seq : Int) : Method (Option RecordedStep) := fun g =>
  (.ok ((g.steps.lookup (workflowId, seq)).map fun r => ⟨r.name, stepRowOutcome r⟩), g)

/-- The row a step result is recorded as. -/
def resultRow (now : DateTime) (name : String) (value : Value) (error : Option String)
    (startedAtMs : Option Int) : StepRow where
  name := name
  output := if error.isSome then none else some value
  error := error
  startedAtMs := startedAtMs
  completedAtMs := some now.timestampMillis

def recordStepResult (now : DateTime) (workflowId : String) (seq : Int) (name : String)
    (value : Value) (error : Option String) (startedAtMs : Option Int) : Method StepOutcome :=
  fun g =>
    let row := resultRow now name value error startedAtMs
    (.ok (stepRowOutcome ((g.steps.lookup (workflowId, seq)).getD row)),
      { g with steps := g.steps.insertNew (workflowId, seq) row })

def recordChildWorkflow (parentId : String) (seq : Int) (name childId : String) : Method Unit :=
  fun g =>
    let row : StepRow := { name := name, childWorkflowId := some childId }
    (.ok (), { g with steps := g.steps.insertNew (parentId, seq) row })

def checkChildWorkflow (parentId : String) (seq : Int) : Method (Option (String × String)) :=
  fun g => (.ok ((g.steps.lookup (parentId, seq)).bind fun r =>
    r.childWorkflowId.map fun id => (id, r.name)), g)

def getStepName (workflowId : String) (seq : Int) : Method (Option String) := fun g =>
  (.ok ((g.steps.lookup (workflowId, seq)).map (·.name)), g)

def recordPatch (workflowId : String) (seq : Int) (name : String) : Method Unit := fun g =>
  (.ok (), { g with steps := g.steps.insertNew (workflowId, seq) { name := name } })

/-- There is no SQL transaction to run a body in. -/
def runTransactionStep : Except Error Value :=
  .error (.app "transactional steps require a SQL backend (Postgres or SQLite)")

/-! ## Messages, events, streams -/

def insertNotification (now : DateTime) (uuid : String) (destinationId topic : String)
    (message : Value) (idempotencyKey : Option String) : Method Unit := fun g =>
  if (g.workflows.lookup destinationId).isNone then
    (.error (.nonExistentWorkflow destinationId), g)
  else
    let messageUuid := match idempotencyKey with
      | some k => k ++ "::" ++ destinationId
      | none => uuid
    if idempotencyKey.isSome && g.notifications.any (·.messageUuid = messageUuid) then (.ok (), g)
    else
      (.ok (), { g with notifications := g.notifications ++
        [⟨messageUuid, destinationId, topic, message, false, now.timestampMillis⟩] })

/-- The id a message is stored under: derived from the key of a keyed send, drawn otherwise. -/
def messageUuid (uuid destinationId : String) : Option String → String
  | some k => k ++ "::" ++ destinationId
  | none => uuid

/-- **An insert by its cases**: the workflow is not there, a keyed message is there already, or the
message is appended. -/
theorem insertNotification_cases (now : DateTime) (uuid dest topic : String) (message : Value)
    (key : Option String) (g : Inner) :
    (g.workflows.lookup dest = none ∧
      insertNotification now uuid dest topic message key g =
        (.error (.nonExistentWorkflow dest), g)) ∨
    ((g.workflows.lookup dest).isSome ∧
      (key.isSome ∧ ∃ n ∈ g.notifications, n.messageUuid = messageUuid uuid dest key) ∧
      insertNotification now uuid dest topic message key g = (.ok (), g)) ∨
    ((g.workflows.lookup dest).isSome ∧
      ¬(key.isSome ∧ ∃ n ∈ g.notifications, n.messageUuid = messageUuid uuid dest key) ∧
      insertNotification now uuid dest topic message key g =
        (.ok (), { g with notifications := g.notifications ++
          [⟨messageUuid uuid dest key, dest, topic, message, false, now.timestampMillis⟩] })) := by
  have heq : insertNotification now uuid dest topic message key g =
      if (g.workflows.lookup dest).isNone then (.error (.nonExistentWorkflow dest), g)
      else if key.isSome && g.notifications.any (·.messageUuid = messageUuid uuid dest key) then
        (.ok (), g)
      else (.ok (), { g with notifications := g.notifications ++
        [⟨messageUuid uuid dest key, dest, topic, message, false, now.timestampMillis⟩] }) := by
    cases key <;> rfl
  rw [heq]
  cases hdest : g.workflows.lookup dest with
  | none => exact .inl ⟨rfl, rfl⟩
  | some row =>
    rw [if_neg (by simp)]
    by_cases hthere : key.isSome ∧ ∃ n ∈ g.notifications, n.messageUuid = messageUuid uuid dest key
    · exact .inr (.inl ⟨rfl, hthere, if_pos (by simpa using hthere)⟩)
    · exact .inr (.inr ⟨rfl, hthere, if_neg (by simpa using hthere)⟩)

/-- The oldest unconsumed message of a mailbox, with its place in the list. -/
def oldest (notifications : List NotificationRow) (workflowId topic : String) :
    Option (NotificationRow × Nat) :=
  (notifications.zipIdx.filter fun e =>
    !e.1.consumed && e.1.destinationId = workflowId && e.1.topic = topic).minOn?
      fun e => e.1.createdAtMs

/-- Mark the message at place `i` consumed. -/
def markConsumed (notifications : List NotificationRow) (i : Nat) : List NotificationRow :=
  notifications.modify i fun n => { n with consumed := true }

def consumeNotification (workflowId topic : String) (seq : Int) (stepName : String) :
    Method (Option Value) := fun g =>
  match oldest g.notifications workflowId topic with
  | none => (.ok none, g)
  | some (n, i) =>
    let row : StepRow := { name := stepName, output := some n.message }
    let canonical := (g.steps.lookup (workflowId, seq)).getD row
    (.ok (some (canonical.output.getD .null)),
      { g with
        notifications := markConsumed g.notifications i
        steps := g.steps.insertNew (workflowId, seq) row })

def upsertEvent (workflowId key : String) (value : Value) : Method Unit := fun g =>
  (.ok (), { g with events := g.events.insert (workflowId, key) value })

def getEventValue (workflowId key : String) : Method (Option Value) := fun g =>
  (.ok (g.events.lookup (workflowId, key)), g)

def writeStream (workflowId key : String) (value : Option Value) : Method Unit := fun g =>
  let entries := (g.streams.lookup (workflowId, key)).getD []
  if entries.any Option.isNone then
    (.error (.app ("stream `" ++ key ++ "` is already closed")),
      { g with streams := g.streams.insertNew (workflowId, key) [] })
  else (.ok (), { g with streams := g.streams.insert (workflowId, key) (entries ++ [value]) })

/-- The values of a stream up to its seal, and whether it is sealed. -/
def untilClosed : List (Option Value) → List Value × Bool
  | [] => ([], false)
  | none :: _ => ([], true)
  | some v :: entries => (v :: (untilClosed entries).1, (untilClosed entries).2)

def readStream (workflowId key : String) (fromOffset : Int) : Method (List Value × Bool) := fun g =>
  let entries := (g.streams.lookup (workflowId, key)).getD []
  (.ok (untilClosed (entries.drop (max fromOffset 0).toNat)), g)

def listWorkflowEvents (workflowId : String) : Method (List (String × Value)) := fun g =>
  let own := g.events.entries.filter fun e => e.1.1 = workflowId
  (.ok ((own.map fun e => (e.1.2, e.2)).mergeSort fun a b => a.1 ≤ b.1), g)

/-! ## Cancel, resume, recover -/

/-- A live row is cancelled; a terminal one is left alone. -/
def cancelRow (now : DateTime) (row : WorkflowStatus) : WorkflowStatus :=
  if row.status.isTerminal then row
  else { row with
    status := .cancelled
    completedAtMs := some now.timestampMillis
    startedAtMs := none
    queueName := none
    dedupId := none
    updatedAt := now }

def cancelWorkflow (now : DateTime) (id : String) : Method Unit := fun g =>
  (.ok (), { g with workflows := g.workflows.modify id (cancelRow now) })

def cancelWorkflows (now : DateTime) (ids : List String) : Method Unit := fun g =>
  (.ok (), { g with workflows := ids.foldl (fun t id => t.modify id (cancelRow now)) g.workflows })

/-- Only a row that is live or cancelled can be resumed. -/
def resumable (row : WorkflowStatus) : Bool := !row.status.isTerminal || row.status = .cancelled

/-- What a resume does to the row. -/
def resumeRow (now : DateTime) (row : WorkflowStatus) : WorkflowStatus :=
  { row with
    status := .pending
    recoveryAttempts := 0
    deadlineMs := none
    dedupId := none
    startedAtMs := none
    completedAtMs := none
    updatedAt := now }

def resumeWorkflow (now : DateTime) (id : String) : Method Bool := fun g =>
  match g.workflows.lookup id with
  | some row =>
    if resumable row then
      (.ok true, { g with workflows := g.workflows.insert id (resumeRow now row) })
    else (.ok false, g)
  | none => (.ok false, g)

def resumeWorkflows (now : DateTime) : List String → Method (List String)
  | [], g => (.ok [], g)
  | id :: ids, g =>
    match g.workflows.lookup id with
    | some row =>
      if resumable row then
        let (rest, g') := resumeWorkflows now ids
          { g with workflows := g.workflows.insert id (resumeRow now row) }
        (rest.map (id :: ·), g')
      else resumeWorkflows now ids g
    | none => resumeWorkflows now ids g

/-- What putting a row back on a queue does to it, whatever its status is. -/
def enqueueRow (now : DateTime) (queue : String) (row : WorkflowStatus) : WorkflowStatus :=
  { row with
    status := .enqueued
    queueName := some queue
    executorId := ""
    startedAtMs := none
    updatedAt := now }

def enqueueExisting (now : DateTime) (id queue : String) : Method Unit := fun g =>
  (.ok (), { g with workflows := g.workflows.modify id (enqueueRow now queue) })

/-- Count a recovery, and park the row once the cap is passed — whatever its status is. -/
def bumpRow (now : DateTime) (max : Int) (row : WorkflowStatus) : WorkflowStatus :=
  let attempts := row.recoveryAttempts + 1
  if max < attempts then
    { row with
      recoveryAttempts := attempts
      status := .maxRecoveryAttemptsExceeded
      dedupId := none
      updatedAt := now }
  else { row with recoveryAttempts := attempts }

def bumpRecoveryAttempts (now : DateTime) (id : String) (max : Int) : Method Int := fun g =>
  match g.workflows.lookup id with
  | some row => (.ok (row.recoveryAttempts + 1),
      { g with workflows := g.workflows.insert id (bumpRow now max row) })
  | none => (.ok 0, g)

/-! ## Queues -/

/-- `req.partition_key` is absent, or the row is in that partition. -/
def inPartition (req : DequeueRequest) (w : WorkflowStatus) : Bool :=
  req.partitionKey.isNone || w.queuePartitionKey = req.partitionKey

/-- How many rows this request may claim. -/
def claimBudget (now : DateTime) (req : DequeueRequest) (g : Inner) : Int :=
  let onQueue (w : WorkflowStatus) : Bool := w.queueName = some req.queueName && inPartition req w
  req.budget now.timestampMillis
    (fun cutoff => g.workflows.values.countP fun w => onQueue w && w.rateLimited &&
      w.status ≠ .enqueued && w.status ≠ .delayed && w.startedAtMs.any (cutoff < ·))
    (g.workflows.values.countP fun w => onQueue w && w.status = .pending)

/-- The request's version is the newest registered one, or none is registered. -/
def isLatest (req : DequeueRequest) (g : Inner) : Bool :=
  match g.versions.values.maxOn? fun v => v.versionTimestamp.nanos with
  | some latest => latest.versionName = req.appVersion
  | none => true

/-- A row this request may claim. -/
def claimable (req : DequeueRequest) (latest : Bool) (w : WorkflowStatus) : Bool :=
  w.queueName = some req.queueName && inPartition req w && w.status = .enqueued &&
    (w.appVersion = req.appVersion || (w.appVersion = "" && latest))

/-- The order of claims: priority, then creation time in milliseconds, then id. -/
def claimLe (a b : Int × Int × String) : Bool :=
  a.1 < b.1 || (a.1 = b.1 && (a.2.1 < b.2.1 || (a.2.1 = b.2.1 && a.2.2 ≤ b.2.2)))

/-- What a claim does to the row. -/
def claimRow (now : DateTime) (req : DequeueRequest) (w : WorkflowStatus) : WorkflowStatus :=
  { w with
    status := .pending
    executorId := req.executorId
    appVersion := req.appVersion
    startedAtMs := some now.timestampMillis
    rateLimited := req.rateLimitMax.isSome
    deadlineMs := w.deadlineMs.or (w.timeoutMs.map fun t => i64 (now.timestampMillis + t))
    updatedAt := now }

/-- The ids a request claims, in the order it claims them. -/
def claimIds (now : DateTime) (req : DequeueRequest) (g : Inner) : List String :=
  let ids := (g.workflows.values.filter (claimable req (isLatest req g))).map fun w =>
    (w.priority, w.createdAt.timestampMillis, w.id)
  ((ids.mergeSort claimLe).take (claimBudget now req g).toNat).map (·.2.2)

def dequeueWorkflows (now : DateTime) (req : DequeueRequest) : Method (List WorkflowStatus) :=
  fun g =>
    let ids := claimIds now req g
    let table := ids.foldl (fun t id => t.modify id (claimRow now req)) g.workflows
    (.ok (ids.filterMap fun id => table.lookup id), { g with workflows := table })

def transitionDelayedWorkflows (now : DateTime) (nowMs : Int) : Method Nat := fun g =>
  let due (w : WorkflowStatus) : Bool := w.status = .delayed && w.delayUntilMs.any (· ≤ nowMs)
  let table := g.workflows.mapRows fun w =>
    if due w then { w with status := .enqueued, delayUntilMs := none, updatedAt := now } else w
  (.ok (g.workflows.values.countP due), { g with workflows := table })

def queuePartitions (queueName : String) : Method (List String) := fun g =>
  let keys := (g.workflows.values.filter fun w =>
    w.queueName = some queueName && w.status = .enqueued).filterMap (·.queuePartitionKey)
  (.ok (keys.mergeSort (· ≤ ·)).dedup, g)

/-! ## Listing and deleting -/

/-- A filter list that is empty lets everything pass. -/
def anyOf {α : Type} [DecidableEq α] (allowed : List α) (a : α) : Bool :=
  allowed.isEmpty || allowed.contains a

/-- The same on an optional column, where a missing value does not pass a filter. -/
def anyOfOpt {α : Type} [DecidableEq α] (allowed : List α) (a : Option α) : Bool :=
  allowed.isEmpty || a.any fun x => allowed.contains x

/-- `filter.is_none_or(|t| …)`. -/
def noneOr {α : Type} (bound : Option α) (test : α → Bool) : Bool := bound.all test

/-- The row passes the filter. -/
def passes (filter : ListFilter) (forkSources : List String) (w : WorkflowStatus) : Bool :=
  anyOf filter.workflowIds w.id &&
  (filter.workflowIdPrefix.isEmpty || filter.workflowIdPrefix.any fun p => w.id.startsWith p) &&
  anyOf filter.name w.name &&
  anyOf filter.status w.status &&
  anyOfOpt filter.queueName w.queueName &&
  anyOf filter.appVersion w.appVersion &&
  anyOf filter.executorIds w.executorId &&
  anyOfOpt filter.authenticatedUsers w.authenticatedUser &&
  anyOfOpt filter.forkedFrom w.forkedFrom &&
  anyOfOpt filter.parentWorkflowIds w.parentWorkflowId &&
  noneOr filter.wasForkedFrom (fun wf => forkSources.contains w.id == wf) &&
  noneOr filter.startTimeMs (fun t => t ≤ w.createdAt.timestampMillis) &&
  noneOr filter.endTimeMs (fun t => w.createdAt.timestampMillis ≤ t) &&
  noneOr filter.completedAfterMs (fun t => w.completedAtMs.any (t ≤ ·)) &&
  noneOr filter.completedBeforeMs (fun t => w.completedAtMs.any (· ≤ t)) &&
  noneOr filter.dequeuedAfterMs (fun t => w.startedAtMs.any (t ≤ ·)) &&
  noneOr filter.dequeuedBeforeMs (fun t => w.startedAtMs.any (· ≤ t)) &&
  noneOr filter.hasParent (fun hp => w.parentWorkflowId.isSome == hp) &&
  (!filter.queuesOnly || w.queueName.isSome)

/-- Blank the columns the caller did not ask to load. -/
def project (filter : ListFilter) (w : WorkflowStatus) : WorkflowStatus :=
  { w with
    input := if filter.loadInput then w.input else .null
    output := if filter.loadOutput then w.output else none }

def listWorkflows (filter : ListFilter) : Method (List WorkflowStatus) := fun g =>
  let forkSources :=
    if filter.wasForkedFrom.isSome then g.workflows.values.filterMap (·.forkedFrom) else []
  let sorted := (g.workflows.values.filter (passes filter forkSources)).mergeSort fun a b =>
    a.createdAt ≤ b.createdAt
  let ordered := if filter.sortDesc then sorted.reverse else sorted
  let dropped := match filter.offset with
    | some off => ordered.drop (max off 0).toNat
    | none => ordered
  let limited := match filter.limit with
    | some lim => dropped.take (max lim 0).toNat
    | none => dropped
  (.ok (limited.map (project filter)), g)

/-- One round of the worklist: the children of the id at place `i` that are not targets yet join the
end.  The loop ends when `i` passes the end; `fuel` bounds its rounds. -/
def expandTargets (g : Inner) : Nat → Nat → List String → List String
  | 0, _, targets => targets
  | fuel + 1, i, targets => match targets[i]? with
    | none => targets
    | some parent =>
      let children := (g.workflows.entries.filter fun e =>
        e.2.parentWorkflowId = some parent && !targets.contains e.1).map (·.1)
      expandTargets g fuel (i + 1) (targets ++ children)

def deleteWorkflows (ids : List String) (deleteChildren : Bool) : Method Unit := fun g =>
  let fuel := ids.length + g.workflows.entries.length + 1
  let targets := if deleteChildren then expandTargets g fuel 0 ids else ids
  (.ok (), { g with
    workflows := g.workflows.retain fun id => !targets.contains id
    steps := g.steps.retain fun k => !targets.contains k.1
    streams := g.streams.retain fun k => !targets.contains k.1
    notifications := g.notifications.filter fun n => !targets.contains n.destinationId })

end Durare.Memory
