import Durare.Foundations.Serialize

/-!
# Store/Rows — what a backend keeps, and what it can be asked

The rows every backend shares — workflow rows, step outcomes, instants — and `ProviderCall`, the
calls of the `StateProvider` trait.  Each call is atomic; `ProviderCall.Result` is what it returns
when it succeeds.
-/

namespace Durare

/-! ## Machine integers -/

/-- A sum or a difference of `i64`s, which wraps around. -/
def i64 (n : Int) : Int := (n + 0x8000000000000000) % 0x10000000000000000 - 0x8000000000000000

/-- The integer is in the range of an `i64`. -/
def FitsI64 (n : Int) : Prop := -0x8000000000000000 ≤ n ∧ n < 0x8000000000000000

theorem fitsI64_zero : FitsI64 0 := ⟨by decide, by decide⟩

theorem fitsI64_i64 (n : Int) : FitsI64 (i64 n) := by
  unfold FitsI64 i64
  omega

theorem i64_of_fits {n : Int} (h : FitsI64 n) : i64 n = n := by
  unfold FitsI64 at h
  unfold i64
  omega

/-- The difference of an `i64` and a number of rows is below the smallest `i64`; of rows there are
no more than an `i64` counts. -/
def Overflows (limit used : Int) : Prop :=
  used ≤ 0x7fffffffffffffff ∧ limit - used < -0x8000000000000000

instance (limit used : Int) : Decidable (Overflows limit used) :=
  inferInstanceAs (Decidable (_ ∧ _))

/-- `(limit - used).max(0)`. -/
def leftOf (limit used : Int) : Int :=
  if Overflows limit used then max (i64 (limit - used)) 0 else max (limit - used) 0

theorem leftOf_le {limit used : Int} (h : 0 ≤ limit) : leftOf limit used ≤
    max (limit - used) 0 := by
  have hfits : ¬Overflows limit used := by
    unfold Overflows
    omega
  exact Int.le_of_eq (if_neg hfits)

/-- An instant, `chrono::DateTime<Utc>`: nanoseconds since the epoch. -/
structure DateTime where
  nanos : Int
  deriving DecidableEq, Repr

/-- A `std::time::Duration` in nanoseconds. -/
structure Duration where
  nanos : Nat
  deriving DecidableEq, Repr

namespace DateTime

/-- `timestamp_millis`: rounded down. -/
def timestampMillis (t : DateTime) : Int := t.nanos / 1000000

instance : LE DateTime := ⟨fun a b => a.nanos ≤ b.nanos⟩

instance (a b : DateTime) : Decidable (a ≤ b) := inferInstanceAs (Decidable (a.nanos ≤ b.nanos))

instance : LT DateTime := ⟨fun a b => a.nanos < b.nanos⟩

instance (a b : DateTime) : Decidable (a < b) := inferInstanceAs (Decidable (a.nanos < b.nanos))

theorem timestampMillis_mono {a b : DateTime} (h : a ≤ b) :
    a.timestampMillis ≤ b.timestampMillis := Int.ediv_le_ediv (by decide) h

/-- `t + chrono::Duration::from_std(d).unwrap_or(zero)`: a duration too long for `chrono`, which
counts in 64-bit milliseconds, is taken as zero.  Past the last instant of `chrono` the source
panics. -/
def addStd (t : DateTime) (d : Duration) : DateTime :=
  if d.nanos ≤ 0x7fffffffffffffff * 1000000 then ⟨t.nanos + d.nanos⟩ else t

/-- `from_timestamp_millis`: `none` outside the range of `chrono`. -/
def fromTimestampMillis (ms : Int) : Option DateTime :=
  if -8334601228800000 ≤ ms && ms ≤ 8210266876799999 then some ⟨ms * 1000000⟩ else none

/-- `(t - now).to_std().unwrap_or(ZERO)`. -/
def remaining (t now : DateTime) : Duration := ⟨(t.nanos - now.nanos).toNat⟩

end DateTime

/-- Instants as JSON integers. -/
@[reducible] def serdeNanos : Serde DateTime where
  toValue t := .ok (.number (.int t.nanos))
  fromValue
    | .number (.int n) => .ok ⟨n⟩
    | v => .error (Serde.invalidType (Serde.unexpected v) "an instant")

theorem lawful_serdeNanos : @LawfulSerde DateTime serdeNanos :=
  @LawfulSerde.mk _ serdeNanos fun t => ⟨.number (.int t.nanos), rfl, rfl⟩

namespace Duration

/-- `as_millis()`. -/
def millis (d : Duration) : Nat := d.nanos / 1000000

/-- `as_millis() as i64`. -/
def asMillis (d : Duration) : Int := i64 d.millis

theorem i64_add_asMillis (n : Int) (d : Duration) : i64 (n + d.asMillis) = i64 (n + d.millis) := by
  unfold asMillis i64
  omega

/-- `Duration::min`. -/
def min (a b : Duration) : Duration := if a.nanos ≤ b.nanos then a else b

end Duration

/-! ## Workflow rows -/

/-- The status column.  `other` is any text the library does not define. -/
inductive Status where
  | enqueued
  | delayed
  | pending
  | success
  | error
  | cancelled
  | maxRecoveryAttemptsExceeded
  | other (text : String)
  deriving DecidableEq, Repr

/-- No further execution will occur, `is_terminal`. -/
def Status.isTerminal : Status → Bool
  | success | error | cancelled | maxRecoveryAttemptsExceeded => true
  | enqueued | delayed | pending | other _ => false

/-- The text of a status, as its column has it. -/
def Status.text : Status → String
  | enqueued => "ENQUEUED"
  | delayed => "DELAYED"
  | pending => "PENDING"
  | success => "SUCCESS"
  | error => "ERROR"
  | cancelled => "CANCELLED"
  | maxRecoveryAttemptsExceeded => "MAX_RECOVERY_ATTEMPTS_EXCEEDED"
  | other text => text

/-- A persisted workflow instance. -/
structure WorkflowStatus where
  id : String
  name : String
  status : Status
  input : Value
  output : Option Value := none
  error : Option String := none
  errorInfo : Option PortableWorkflowError := none
  executorId : String
  appVersion : String
  queueName : Option String := none
  queuePartitionKey : Option String := none
  priority : Int := 0
  dedupId : Option String := none
  recoveryAttempts : Int := 0
  parentWorkflowId : Option String := none
  timeoutMs : Option Int := none
  deadlineMs : Option Int := none
  startedAtMs : Option Int := none
  rateLimited : Bool := false
  delayUntilMs : Option Int := none
  completedAtMs : Option Int := none
  forkedFrom : Option String := none
  authenticatedUser : Option String := none
  assumedRole : Option String := none
  authenticatedRoles : List String := []
  className : Option String := none
  configName : Option String := none
  createdAt : DateTime
  updatedAt : DateTime

/-- A fresh row, `WorkflowStatus::new`. -/
def WorkflowStatus.new (now : DateTime) (id name : String) (input : Value) (status : Status)
    (executorId appVersion : String) : WorkflowStatus where
  id := id
  name := name
  status := status
  input := input
  executorId := executorId
  appVersion := appVersion
  createdAt := now
  updatedAt := now

/-- Rows sorted by the instant of their creation are so by its milliseconds. -/
theorem pairwise_mergeSort_createdAt (rows : List WorkflowStatus) :
    (rows.mergeSort fun a b => a.createdAt ≤ b.createdAt).Pairwise fun a b =>
      a.createdAt.timestampMillis ≤ b.createdAt.timestampMillis := by
  let older (a b : WorkflowStatus) : Bool := a.createdAt ≤ b.createdAt
  have htrans (a b c : WorkflowStatus) (hab : older a b) (hbc : older b c) : older a c :=
    decide_eq_true (Int.le_trans (of_decide_eq_true hab) (of_decide_eq_true hbc))
  have htotal (a b : WorkflowStatus) : older a b || older b a := by
    have htotal := Int.le_total a.createdAt.nanos b.createdAt.nanos
    simpa [older, LE.le] using htotal
  exact (List.pairwise_mergeSort htrans htotal rows).imp fun hab =>
    DateTime.timestampMillis_mono (of_decide_eq_true hab)

/-! ## Step outcomes -/

/-- What a recorded step holds, `StepOutcome`. -/
inductive StepOutcome where
  | output (v : Value)
  | failure (message : String) (info : Option PortableWorkflowError)

/-- A recorded step with the name it was recorded under. -/
structure RecordedStep where
  name : String
  outcome : StepOutcome

/-- The value, or the error a recorded failure is rebuilt as, `into_value_result`. -/
def StepOutcome.intoValueResult : StepOutcome → Except Error Value
  | output v => .ok v
  | failure _ (some pe) => .error (.portable pe)
  | failure message none => .error (.app message)

/-- Decode a recorded outcome at `T`, `outcome_value`. -/
def outcomeValue (T : Type) [Serde T] (o : StepOutcome) : Except Error T :=
  match o.intoValueResult with
  | .ok v => (Serde.fromValue v).mapError .serde
  | .error e => .error e

/-- A row of the SQL table `operation_outputs`. -/
structure OperationRow where
  functionName : String
  output : Option String := none
  error : Option String := none
  serialization : Option String := none
  childWorkflowId : Option String := none
  startedAtEpochMs : Option Int := none
  completedAtEpochMs : Option Int := none

/-- The outcome in the columns of a row, `step_outcome_from`: none when both are null. -/
def stepOutcomeFrom (X : TextCodec) (s : Serializer) (row : OperationRow) :
    Except Error (Option StepOutcome) :=
  match row.error, row.output with
  | some err, _ =>
    let (message, info) := decodeError X row.serialization err
    .ok (some (.failure message info))
  | none, some text => (decode X s row.serialization text).map fun v => some (.output v)
  | none, none => .ok none

/-! ## Requests -/

/-- What a dispatcher asks a queue for. -/
structure DequeueRequest where
  queueName : String
  executorId : String
  appVersion : String
  partitionKey : Option String
  maxTasks : Int
  globalConcurrency : Option Int
  rateLimitMax : Option Int
  rateLimitPeriodMs : Option Int

namespace DequeueRequest

variable (req : DequeueRequest) {recent : Int → Int} {pending : Int}

/-- How many rows a request may claim: the smallest of the asked number, what the rate limit leaves
of the starts since a cutoff, and what the concurrency cap leaves of the pending rows. -/
def budget (nowMs : Int) (recent : Int → Int) (pending : Int) : Int :=
  let rated := match req.rateLimitMax, req.rateLimitPeriodMs with
    | some limit, some period => min req.maxTasks (leftOf limit (recent (i64 (nowMs - period))))
    | _, _ => req.maxTasks
  match req.globalConcurrency with
  | some cap => min rated (leftOf cap pending)
  | none => rated

variable {req} {nowMs cap limit period : Int}

theorem budget_le_maxTasks : req.budget nowMs recent pending ≤ req.maxTasks := by
  unfold budget
  grind

theorem budget_le_cap (hcap : req.globalConcurrency = some cap) :
    req.budget nowMs recent pending ≤ leftOf cap pending := by
  unfold budget
  rw [hcap]
  exact Int.min_le_right _ _

theorem budget_le_rate (hlimit : req.rateLimitMax = some limit)
    (hperiod : req.rateLimitPeriodMs = some period) :
    req.budget nowMs recent pending ≤ leftOf limit (recent (i64 (nowMs - period))) := by
  unfold budget
  rw [hlimit, hperiod]
  dsimp only
  split
  · exact Int.le_trans (Int.min_le_left _ _) (Int.min_le_right _ _)
  · exact Int.min_le_right _ _

end DequeueRequest

/-- A registered application version. -/
structure VersionInfo where
  versionName : String
  versionTimestamp : DateTime

/-- Which workflow rows to list, and how; an empty list or `none` does not filter. -/
structure ListFilter where
  workflowIds : List String := []
  workflowIdPrefix : List String := []
  name : List String := []
  status : List Status := []
  queueName : List String := []
  appVersion : List String := []
  executorIds : List String := []
  authenticatedUsers : List String := []
  forkedFrom : List String := []
  parentWorkflowIds : List String := []
  wasForkedFrom : Option Bool := none
  startTimeMs : Option Int := none
  endTimeMs : Option Int := none
  completedAfterMs : Option Int := none
  completedBeforeMs : Option Int := none
  dequeuedAfterMs : Option Int := none
  dequeuedBeforeMs : Option Int := none
  hasParent : Option Bool := none
  limit : Option Int := none
  offset : Option Int := none
  sortDesc : Bool := false
  queuesOnly : Bool := false
  loadInput : Bool := true
  loadOutput : Bool := true

/-- A call of the `StateProvider` trait. -/
inductive ProviderCall where
  | insertWorkflowStatus (status : WorkflowStatus)
  | getDeduplicatedWorkflow (queueName dedupId : String)
  | getWorkflowStatus (id : String)
  | setWorkflowStatus (id : String) (status : Status) (output : Option Value)
      (error : Option String)
  | getStepResult (workflowId : String) (seq : Int)
  | recordStepResult (workflowId : String) (seq : Int) (name : String) (value : Value)
      (error : Option String) (startedAtMs : Option Int)
  | insertNotification (destinationId topic : String) (message : Value)
      (idempotencyKey : Option String)
  | consumeNotification (workflowId topic : String) (seq : Int) (stepName : String)
  | upsertEvent (workflowId key : String) (value : Value)
  | getEventValue (workflowId key : String)
  | recordChildWorkflow (parentId : String) (seq : Int) (name childId : String)
  | checkChildWorkflow (parentId : String) (seq : Int)
  | getStepName (workflowId : String) (seq : Int)
  | recordPatch (workflowId : String) (seq : Int) (name : String)
  | writeStream (workflowId key : String) (value : Option Value) (functionId : Int)
  | cancelWorkflow (id : String)
  | cancelWorkflows (ids : List String)
  | resumeWorkflow (id : String)
  | resumeWorkflows (ids : List String)
  | enqueueExisting (id queue : String)
  | bumpRecoveryAttempts (id : String) (max : Int)
  | dequeueWorkflows (req : DequeueRequest)
  | transitionDelayedWorkflows (nowMs : Int)
  | queuePartitions (queueName : String)
  | listWorkflows (filter : ListFilter)
  | deleteWorkflows (ids : List String) (deleteChildren : Bool)

/-- What a call returns when it succeeds. -/
@[reducible] def ProviderCall.Result : ProviderCall → Type
  | insertWorkflowStatus _ => WorkflowStatus × Bool
  | getDeduplicatedWorkflow _ _ => Option String
  | getWorkflowStatus _ => Option WorkflowStatus
  | setWorkflowStatus _ _ _ _ => Unit
  | getStepResult _ _ => Option RecordedStep
  | recordStepResult _ _ _ _ _ _ => StepOutcome
  | insertNotification _ _ _ _ => Unit
  | consumeNotification _ _ _ _ => Option Value
  | upsertEvent _ _ _ => Unit
  | getEventValue _ _ => Option Value
  | recordChildWorkflow _ _ _ _ => Unit
  | checkChildWorkflow _ _ => Option (String × String)
  | getStepName _ _ => Option String
  | recordPatch _ _ _ => Unit
  | writeStream _ _ _ _ => Unit
  | cancelWorkflow _ => Unit
  | cancelWorkflows _ => Unit
  | resumeWorkflow _ => Bool
  | resumeWorkflows _ => List String
  | enqueueExisting _ _ => Unit
  | bumpRecoveryAttempts _ _ => Int
  | dequeueWorkflows _ => List WorkflowStatus
  | transitionDelayedWorkflows _ => Nat
  | queuePartitions _ => List String
  | listWorkflows _ => List WorkflowStatus
  | deleteWorkflows _ _ => Unit

end Durare
