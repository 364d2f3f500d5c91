import Durare.Context.Verbs
import Durare.Store.Sqlite

/-!
# Context/Sqlite — the SQLite backend behind the trait, and its transactional steps

`call` is the table of the methods.  A transactional step is not one atomic call:
`runTransactionStep` is a process whose statements are answered by `sql`.  Any statement may fail
with a database error; a commit may also **take effect and still be reported as a lost connection**.
-/

namespace Durare

/-! ## Options of a transactional step -/

namespace TransactionOptions

/-- `user_retry_backoff`. -/
def userRetryBackoff (opts : TransactionOptions) (attempt : Nat) : Duration :=
  retryDelay opts.baseInterval opts.maxInterval opts.backoffFactor attempt

/-- `should_user_retry`. -/
def shouldUserRetry (opts : TransactionOptions) (err : Error) (attempt : Nat) : Bool :=
  !err.isTxConflict && attempt < opts.maxRetries && opts.retryIf.all fun p => p err

end TransactionOptions

namespace Sqlite

open Verb

section

variable (X : TextCodec) (s : Serializer)

/-- The methods of the trait. -/
def call : (c : ProviderCall) → DateTime → String → Method c.Result
  | .insertWorkflowStatus status, now, _ => insertWorkflowStatus X s now status
  | .getDeduplicatedWorkflow queue dedup, _, _ => getDeduplicatedWorkflow queue dedup
  | .getWorkflowStatus id, now, _ => getWorkflowStatus X s now id
  | .setWorkflowStatus id status output error, now, _ =>
    setWorkflowStatus X s now id status output error
  | .getStepResult id seq, _, _ => getStepResult X s id seq
  | .recordStepResult id seq name value error started, now, _ =>
    recordStepResult X s now id seq name value error started
  | .insertNotification dest topic message key, now, uuid =>
    insertNotification X s now uuid dest topic message key
  | .consumeNotification id topic seq name, _, _ => consumeNotification X s id topic seq name
  | .upsertEvent id key value, _, _ => upsertEvent X s id key value
  | .getEventValue id key, _, _ => getEventValue X s id key
  | .recordChildWorkflow id seq name child, _, _ => recordChildWorkflow id seq name child
  | .checkChildWorkflow id seq, _, _ => checkChildWorkflow id seq
  | .getStepName id seq, _, _ => getStepName id seq
  | .recordPatch id seq name, _, _ => recordPatch id seq name
  | .writeStream id key value functionId, _, _ => writeStream X s id key value functionId
  | .cancelWorkflow id, now, _ => cancelWorkflow now id
  | .cancelWorkflows ids, now, _ => cancelWorkflows now ids
  | .resumeWorkflow id, now, _ => resumeWorkflow now id
  | .resumeWorkflows ids, now, _ => resumeWorkflows now ids
  | .enqueueExisting id queue, now, _ => enqueueExisting now id queue
  | .bumpRecoveryAttempts id max, now, _ => bumpRecoveryAttempts now id max
  | .dequeueWorkflows req, now, _ => dequeueWorkflows X s now req
  | .transitionDelayedWorkflows nowMs, _, _ => transitionDelayedWorkflows nowMs
  | .queuePartitions name, _, _ => queuePartitions name
  | .listWorkflows filter, now, _ => listWorkflows X s now filter
  | .deleteWorkflows ids children, _, _ => deleteWorkflows ids children

/-! ## Transactional steps -/

/-- Back off before the next transaction, unless the workflow has been cancelled; a status that
cannot be read counts as not cancelled. -/
def conflictRetryWait (workflowId : String) (attempt : Nat) : Verb Unit := do
  match ← Verb.attempt (query (.selectStatus workflowId)) with
  | .ok (some .cancelled) => fail (.cancelled workflowId)
  | _ => perform (.sleep ⟨min (1 <<< min attempt 10) 1000 * 1000000⟩)

/-- One transaction: the body, the checkpoint of its value, the commit. -/
def transactionAttempt (workflowId : String) (seq startedAtMs : Int) (name : String) :
    Verb Value := do
  query .begin
  match ← Verb.attempt (query (.body workflowId seq)) with
  | .ok (value, writes) =>
    let output ← ofExcept (s.encode X value)
    let now ← perform .utcNow
    let row : OperationRow :=
      { functionName := name, output := some output, serialization := some s.name,
        startedAtEpochMs := some startedAtMs, completedAtEpochMs := some now.timestampMillis }
    query (.insertOperation workflowId seq row)
    query (.commit workflowId seq writes row)
    return value
  | .error e =>
    if e.isTxConflict || e.isRetryable then fail e
    else
      query .rollback
      fail e

/-- The inner loop: a conflict or a transient database error restarts the transaction, without
bound; any other error is the body's. -/
def conflictLoop (workflowId : String) (seq startedAtMs : Int) (name : String) :
    Verb (Except Error Value) :=
  loop (fun conflictAttempt => do
    match ← Verb.attempt (transactionAttempt X s workflowId seq startedAtMs name) with
    | .ok v => return .inr (.ok v)
    | .error e =>
      if e.isTxConflict || e.isRetryable then
        conflictRetryWait workflowId conflictAttempt
        return .inl (conflictAttempt + 1)
      else return .inr (.error e)) 0

/-- The outer loop: the user's retry policy, then a durable failure. -/
def userLoop (workflowId : String) (seq startedAtMs : Int) (opts : TransactionOptions) :
    Verb Value :=
  loop (fun userAttempt => do
    match ← conflictLoop X s workflowId seq startedAtMs opts.name with
    | .ok v => return .inr v
    | .error e =>
      if opts.shouldUserRetry e userAttempt then
        perform (.sleep (opts.userRetryBackoff userAttempt))
        return .inl (userAttempt + 1)
      else
        let now ← perform .utcNow
        query (.insertFailure workflowId seq
          { functionName := opts.name, error := some (encodeError X s e),
            serialization := some s.name, startedAtEpochMs := some startedAtMs,
            completedAtEpochMs := some now.timestampMillis })
        fail e) 0

/-- A recorded outcome is returned ahead of the loops. -/
def transactionStep (workflowId : String) (seq startedAtMs : Int) (opts : TransactionOptions) :
    Verb Value := do
  match ← query (.selectOperation workflowId seq) with
  | some row => match ← ofExcept (stepOutcomeFrom X s row) with
    | some outcome =>
      if row.functionName ≠ opts.name then
        fail (.unexpectedStep workflowId seq opts.name row.functionName)
      else ofExcept outcome.intoValueResult
    | none => userLoop X s workflowId seq startedAtMs opts
  | none => userLoop X s workflowId seq startedAtMs opts

def runTransactionStep (workflowId : String) (seq startedAtMs : Int) (opts : TransactionOptions) :
    Proc Eff Answer (Except Error Value) :=
  (transactionStep X s workflowId seq startedAtMs opts {}).bind fun r => .ret r.1

end

/-! ## How statements are answered -/

/-- The database with a transaction applied: the statements of the body, and the checkpoint unless a
row is there. -/
def Db.applied (db : Db) (workflowId : String) (seq : Int) (writes : List String)
    (row : OperationRow) : Db :=
  { db with
    operationOutputs := db.operationOutputs.insertNew (workflowId, seq) row
    application := db.application ++ [⟨workflowId, seq, writes⟩] }

/-- The answer is a database error. -/
def DbError {α : Type} (r : Except Error α) : Prop := ∃ e, r = .error (.db e)

/-- How the database answers a statement of a transactional step.  The body is user code and answers
anything. -/
def sql : (q : SqlCall) → Db → Except Error q.Result → Db → Prop
  | .selectOperation id seq, db, r, db' =>
    (DbError r ∨ r = .ok (db.operationOutputs.lookup (id, seq))) ∧ db' = db
  | .begin, db, r, db' | .rollback, db, r, db' => (DbError r ∨ r = .ok ()) ∧ db' = db
  | .body _ _, db, _, db' => db' = db
  | .insertOperation id seq row, db, r, db' =>
    (DbError r ∨ r = .ok () ∧ (insertOperation id seq row db).isOk) ∧ db' = db
  | .commit id seq writes row, db, r, db' =>
    ((r = .ok () ∨ ∃ m, r = .error (.db (.io m))) ∧ db' = db.applied id seq writes row) ∨
      DbError r ∧ db' = db
  | .selectStatus id, db, r, db' =>
    (DbError r ∨ r = .ok ((db.workflowStatus.lookup id).map (·.status))) ∧ db' = db
  | .insertFailure id seq row, db, r, db' =>
    (∃ db₁, insertOperation id seq row db = .ok db₁ ∧ db' = db₁ ∧
      (r = .ok () ∨ ∃ m, r = .error (.db (.io m)))) ∨ DbError r ∧ db' = db

/-- The SQLite backend with serializer `s`. -/
def provider (X : TextCodec) (s : Serializer) : Provider where
  State := Db
  serializer := s
  text := X
  supportsListenNotify := false
  call := call X s
  runTransactionStep := runTransactionStep X s
  sql := sql

end Sqlite

end Durare
