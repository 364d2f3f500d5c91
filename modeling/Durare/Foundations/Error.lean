import Durare.Foundations.Value

/-!
# Foundations/Error — the error type, its codes and its messages

`Error` is the crate-wide error.  Three views of it are used by the rest of the library: `code`, the
stable classification callers branch on; `message`, the display text, which is all a checkpoint
keeps of a failure; and the predicates `isRetryable` and `isTxConflict` that steer the retry loops
of a transactional step.
-/

namespace Durare

/-- The cross-language error envelope, `PortableWorkflowError`. -/
structure PortableWorkflowError where
  name : String
  message : String
  code : Option Value
  data : Option Value

/-- Which constraint a database error reports as violated. -/
inductive Violation where
  | unique
  | foreignKey
  deriving DecidableEq, Repr

/-- A `sqlx::Error`, as far as the library looks into it. -/
inductive SqlxError where
  /-- the connection failed: `sqlx::Error::Io` -/
  | io (message : String)
  | poolTimedOut
  | poolClosed
  | rowNotFound
  /-- the database rejected a statement: `sqlx::Error::Database` -/
  | database (code : Option String) (violation : Option Violation) (message : String)
  deriving DecidableEq, Repr

/-- The display text of a `sqlx::Error`. -/
def SqlxError.message : SqlxError → String
  | io m => "error communicating with database: " ++ m
  | poolTimedOut => "pool timed out while waiting for an open connection"
  | poolClosed => "attempted to acquire a connection on a closed pool"
  | rowNotFound => "no rows returned by a query that expected to return at least one row"
  | database _ _ m => "error returned from database: " ++ m

/-- The stable classification of an error. -/
inductive ErrorCode where
  | database
  | initialization
  | serialization
  | workflowNotRegistered
  | queueNotRegistered
  | nonExistentWorkflow
  | queueDeduplicated
  | workflowCancelled
  | maxRecoveryAttemptsExceeded
  | conflictingRegistration
  | timeout
  | unexpectedStep
  | application
  deriving DecidableEq, Repr

/-- The crate-wide error.  The in-process `source` of an application error is left out: nothing
reads it back. -/
inductive Error where
  | db (e : SqlxError)
  | migrate (message : String)
  | serde (message : String)
  | serialization (message : String)
  | unknownWorkflow (name : String)
  | unknownQueue (name : String)
  | nonExistentWorkflow (id : String)
  | queueDeduplicated (queueName dedupId : String)
  | cancelled (id : String)
  | maxRecoveryAttemptsExceeded (id : String)
  | conflictingRegistration (name : String)
  | timeout
  | unexpectedStep (workflowId : String) (stepId : Int) (expected recorded : String)
  | app (message : String)
  | portable (envelope : PortableWorkflowError)

namespace Error

/-- The stable code of an error, `Error::code`. -/
def code : Error → ErrorCode
  | db _ => .database
  | migrate _ => .initialization
  | serde _ | serialization _ => .serialization
  | unknownWorkflow _ => .workflowNotRegistered
  | unknownQueue _ => .queueNotRegistered
  | nonExistentWorkflow _ => .nonExistentWorkflow
  | queueDeduplicated _ _ => .queueDeduplicated
  | cancelled _ => .workflowCancelled
  | maxRecoveryAttemptsExceeded _ => .maxRecoveryAttemptsExceeded
  | conflictingRegistration _ => .conflictingRegistration
  | timeout => .timeout
  | unexpectedStep _ _ _ _ => .unexpectedStep
  | app _ | portable _ => .application

/-- The display text of an error, `to_string()`. -/
def message : Error → String
  | db e => "database error: " ++ e.message
  | migrate m => "migration error: " ++ m
  | serde m => "serialization error: " ++ m
  | serialization m => "serialization format error: " ++ m
  | unknownWorkflow n => "no workflow registered under name `" ++ n ++ "`"
  | unknownQueue n => "no queue registered under name `" ++ n ++ "`"
  | nonExistentWorkflow id => "workflow `" ++ id ++ "` does not exist"
  | queueDeduplicated q d => "deduplication id `" ++ d ++ "` already in use on queue `" ++ q ++ "`"
  | cancelled id => "workflow `" ++ id ++ "` was cancelled"
  | maxRecoveryAttemptsExceeded id =>
    "workflow `" ++ id ++ "` exceeded its maximum recovery attempts"
  | conflictingRegistration n => "workflow name `" ++ n ++ "` is registered more than once"
  | timeout => "operation timed out"
  | unexpectedStep id seq expected recorded =>
    "workflow `" ++ id ++ "` step " ++ toString seq ++ " is `" ++ expected ++ "` but `" ++
      recorded ++ "` is recorded there — the workflow function is non-deterministic"
  | app m => m
  | portable pe => pe.message

/-! ## Transient failures -/

/-- `code.parse::<i32>()` succeeds and the low byte of the number is `5` (BUSY) or `6` (LOCKED). -/
def isBusyOrLocked (code : String) : Bool :=
  match code.toInt? with
  | some n => -0x80000000 ≤ n && n < 0x80000000 && (n % 256 == 5 || n % 256 == 6)
  | none => false

/-- A transaction-level conflict by its database code, `is_tx_conflict_code`. -/
def isTxConflictCode (code : String) : Bool :=
  if code.utf8ByteSize = 5 then code == "40001" || code == "40P01" else isBusyOrLocked code

/-- A transient failure by its database code, `is_retryable_db_code`. -/
def isRetryableDbCode (code : String) : Bool :=
  if code.utf8ByteSize = 5 then
    code.startsWith "08" || code == "57P01" || code == "57P02" || code == "57P03" || code == "53300"
  else isBusyOrLocked code

/-- A transient database failure worth retrying, `Error::is_retryable`. -/
def isRetryable : Error → Bool
  | db (.io _) | db .poolTimedOut | db .poolClosed => true
  | db (.database code _ _) => (code.map isRetryableDbCode).getD false
  | _ => false

/-- A conflict that restarts the whole transaction, `Error::is_tx_conflict`. -/
def isTxConflict : Error → Bool
  | db (.database code _ _) => (code.map isTxConflictCode).getD false
  | _ => false

end Error

end Durare
