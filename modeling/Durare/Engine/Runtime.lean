import Durare.Context.Ops
import Durare.Machinery.Interleave

/-!
# Engine/Runtime — the engine's own functions

What happens around a workflow body: the run of a body to its terminal status, starting, resuming,
the recovery sweep and the queue dispatcher, each line by line.  `WorkflowFn` is a registered
handler — user code that awaits durable operations, the results of other workflows, and anything
else.

`engine` puts them together: any number of executions, sweeps, dispatchers and callers of the
engine over one store, interleaved at every call of the backend.

Tracing and counters are left out, and so are schedules, forks and debouncing.
-/

namespace Durare

open Verb

/-! ## Handles -/

/-- The row behind a handle, `get_status`. -/
def getStatus (id : String) : Verb WorkflowStatus := do
  match ← ask (.getWorkflowStatus id) with
  | some status => return status
  | none => fail (.unknownWorkflow id)

/-- What a handle returns for a terminal row. -/
def terminalToResult (O : Type) [Serde O] (id : String) (status : WorkflowStatus) :
    Except Error O :=
  match status.status with
  | .cancelled => .error (.cancelled id)
  | .maxRecoveryAttemptsExceeded => .error (.maxRecoveryAttemptsExceeded id)
  | .error => .error (match status.errorInfo with
      | some info => .portable info
      | none => .app (status.error.getD "workflow failed"))
  | _ => (Serde.fromValue (status.output.getD .null)).mapError .serde

/-- How long a polling handle waits between two reads. -/
def POLL_INTERVAL : Duration := ⟨100000000⟩

/-- `result` of a polling handle: read the row until it is terminal. -/
def result (O : Type) [Serde O] (id : String) : Verb O :=
  loop (fun _ : Unit => do
    match ← attempt (getStatus id) with
    | .ok status =>
      if status.status.isTerminal then
        let r ← ofExcept (terminalToResult O id status)
        return .inr r
      else again
    -- The workflow may not exist yet.
    | .error (.unknownWorkflow _) => again
    | .error e => fail e) ()
where
  /-- wait and read again -/
  again : Verb (Unit ⊕ O) := do
    let _ ← perform (.sleep POLL_INTERVAL)
    return .inl ()

/-! ## Workflow bodies -/

/-- What a workflow body awaits: a durable operation, another workflow's result, anything else. -/
inductive Act : Type 1 where
  | op (o : Op)
  | result (O : Type) [Serde O] (id : String)
  | outside (T : Type)

/-- What a body gets to see. -/
@[reducible] def Act.Outcome : Act → Type
  | op o => Except Error o.Result
  | result O _ => Except Error O
  | outside T => T

/-- A registered handler: user code that returns, or panics. -/
abbrev WorkflowFn := DurableContext → Value → Program Act Act.Outcome (Caught (Except Error Value))

section

variable [Serde DateTime] (P : Provider)

/-- One thing a body awaits. -/
def Act.run (ctx : DurableContext) : (a : Act) → CtxState →
    Proc Eff Answer (a.Outcome × CtxState)
  | op o, s => o.run P ctx s
  | result O id, s => Durare.result O id s
  | outside T, s => .call (.outside T) fun r => .ret (r, s)

/-- A body as a process. -/
def runBody {R : Type} (ctx : DurableContext) : Program Act Act.Outcome R → CtxState →
    Proc Eff Answer R
  | .done r, _ => .ret r
  | .op a k, s => (a.run P ctx s).bind fun r => runBody ctx (k r.1) r.2

/-! ## One execution -/

/-- Record how the body ended.  A panic leaves the row as it is. -/
def conclude (id : String) : Caught (Except Error Value) → Verb Value
  | .panicked payload => fail (.app ("workflow panicked: " ++ panicMessage payload))
  | .returned (.ok output) => do
      let _ ← ask (.setWorkflowStatus id .success (some output) none)
      return output
  -- Whose cancellation the error reports is not looked at.
  | .returned (.error (.cancelled _)) => do
      let _ ← ask (.setWorkflowStatus id .cancelled none (some "cancelled"))
      fail (.cancelled id)
  | .returned (.error e) => do
      let _ ← ask (.setWorkflowStatus id .error none (some (encodeError P.text P.serializer e)))
      fail e

/-- The instant at which the timer of an execution fires that was started at `now`. -/
def timerAt (now : DateTime) (deadlineMs : Int) : DateTime :=
  ⟨now.nanos + max (deadlineMs - now.timestampMillis) 0 * 1000000⟩

def runToCompletion (rt : Runtime) (handler : WorkflowFn) (id : String) (input : Value)
    (deadlineMs : Option Int) (auth : AuthContext) : Verb Value :=
  let ctx : DurableContext := ⟨id, auth, rt⟩
  let run := runBody P ctx (handler ctx input) {}
  match deadlineMs with
  | some dl => do
      let now ← perform .utcNow
      match ← ofProc (run.cut (.elapsed (timerAt now dl)) fun fired => fired) with
      | some caught => conclude P id caught
      | none =>
        let _ ← ask (.setWorkflowStatus id .cancelled none (some "deadline exceeded"))
        fail .timeout
  | none => do
      let caught ← ofProc run
      conclude P id caught

end

/-! ## The engine -/

/-- At most `limit` starts within any trailing `period`. -/
structure RateLimiter where
  limit : Int
  period : Duration

/-- A named durable queue. -/
structure WorkflowQueue where
  name : String
  workerConcurrency : Option Nat := none
  globalConcurrency : Option Int := none
  -- The dispatcher does not read it.
  priorityEnabled : Bool := false
  rateLimit : Option RateLimiter := none
  maxTasksPerIteration : Nat := 100
  partitioned : Bool := false
  basePollingInterval : Duration := ⟨1000000000⟩
  maxPollingInterval : Duration := ⟨120000000000⟩

/-- The queue every engine dispatches. -/
def INTERNAL_QUEUE : String := "_dbos_internal_queue"

/-- What an engine was configured with. -/
structure Engine where
  registry : List (String × WorkflowFn)
  queues : List WorkflowQueue := []
  executorId : String := "local"
  appVersion : String
  maxRecoveryAttempts : Int := 100

namespace Engine

/-- The part of the engine a context sees. -/
def runtime (E : Engine) : Runtime :=
  ⟨E.registry.map (·.1), E.queues.map (·.name), E.executorId, E.appVersion⟩

/-- The handler registered under a key. -/
def handler (E : Engine) (key : String) : Option WorkflowFn :=
  (E.registry.find? (·.1 = key)).map (·.2)

end Engine

/-- The identity recorded on a row. -/
def AuthContext.fromStatus (row : WorkflowStatus) : AuthContext :=
  ⟨row.authenticatedUser, row.assumedRole, row.authenticatedRoles⟩

section

variable (E : Engine)

/-! ## Starting, resuming -/

/-- One attempt at the row of a new run: it is there, a workflow with the same deduplication id is
returned in its place, or the slot was freed in between and the attempt is made again. -/
def insertOrExisting (id name : String) (input : Value) (opts : WorkflowOptions)
    (auth : AuthContext) : Verb (Unit ⊕ (String ⊕ (WorkflowStatus × Bool))) := do
  match ← attempt (insertRun E.runtime id name input opts none auth) with
  | .ok (canonical, queued, _) => return .inr (.inr (canonical, queued))
  | .error e =>
    if opts.dedupPolicy = .returnExisting ∧ e.code = .queueDeduplicated then
      match opts.queue, opts.dedupId with
      | some queue, some dedup =>
        match ← ask (.getDeduplicatedWorkflow queue dedup) with
        | some existing => return .inr (.inl existing)
        | none => return .inl ()
      | _, _ => return .inl ()
    else fail e

/-- The id of a new run: the one asked for, or a drawn one — also in place of an empty one. -/
def startId (uuid : String) (opts : WorkflowOptions) : String :=
  match opts.workflowId with
  | some id => if id = "" then uuid else id
  | none => uuid

/-- `start`; the handle it returns is its id. -/
def start (uuid : String) (I : Type) [Serde I] (name : String) (input : I)
    (opts : WorkflowOptions) : Verb String := do
  let id := startId uuid opts
  let json ← toValue input
  if opts.dedupPolicy ≠ .reject ∧ opts.dedupId = none then
    fail (.app "a deduplication policy requires a deduplication id")
  else
    let key := registryKey name opts.configName
    if key ∉ E.runtime.workflows then fail (.unknownWorkflow name)
    else
      let auth : AuthContext := ⟨opts.authenticatedUser, opts.assumedRole, opts.authenticatedRoles⟩
      match ← loop (fun _ : Unit => insertOrExisting E id name json opts auth) () with
      | .inl existing => return existing
      | .inr (canonical, queued) =>
        if queued || canonical.status.isTerminal then return id
        else
          let _ ← perform (.spawn id key canonical.input canonical.deadlineMs auth)
          return id

/-- `resume_workflow_on`: the row becomes `PENDING` in one call and goes on the queue in the
next. -/
def resumeWorkflowOn (id queue : String) : Verb String := do
  if ← ask (.resumeWorkflow id) then
    let _ ← ask (.enqueueExisting id queue)
    return id
  else
    match ← ask (.getWorkflowStatus id) with
    | some _ => return id
    | none => fail (.nonExistentWorkflow id)

def resumeWorkflow (id : String) : Verb String := resumeWorkflowOn id INTERNAL_QUEUE

def resumeWorkflowsOn (ids : List String) (queue : String) : Verb (List String) := do
  let resumed ← ask (.resumeWorkflows ids)
  forEach (fun id => ask (.enqueueExisting id queue)) resumed
  let existing ← ask (.listWorkflows { workflowIds := ids })
  return ids.filter fun id => (existing.map (·.id)).contains id

def resumeWorkflows (ids : List String) : Verb (List String) := resumeWorkflowsOn ids INTERNAL_QUEUE

/-! ## The recovery sweep -/

/-- The `PENDING` rows of this version and these executors. -/
def listPendingWorkflows (executorIds : List String) : Verb (List WorkflowStatus) :=
  ask (.listWorkflows { status := [.pending], appVersion := [E.appVersion], executorIds })

variable [Serde DateTime] (P : Provider)

/-- Take up the rows of a snapshot: count the recovery, park a row past the cap, put a queued row
back on its queue, and run any other to completion here. -/
def dispatchPendingWorkflows : List WorkflowStatus → Verb (List String)
  | [] => return []
  | record :: pending => do
      if ← perform .isCancelled then return []
      else
        let attempts ← ask (.bumpRecoveryAttempts record.id E.maxRecoveryAttempts)
        if E.maxRecoveryAttempts < attempts then dispatchPendingWorkflows pending
        else if record.queueName.isSome then
          let _ ← ask (.setWorkflowStatus record.id .enqueued none none)
          let recovered ← dispatchPendingWorkflows pending
          return record.id :: recovered
        else
          match E.handler (registryKey record.name record.configName) with
          | some handler =>
            let _ ← attempt (runToCompletion P E.runtime handler record.id record.input
              record.deadlineMs (AuthContext.fromStatus record))
            let recovered ← dispatchPendingWorkflows pending
            return record.id :: recovered
          | none => dispatchPendingWorkflows pending

def recoverPendingWorkflows (executorIds : List String) : Verb (List String) := do
  let pending ← listPendingWorkflows E executorIds
  dispatchPendingWorkflows E P pending

end

/-! ## The queue dispatcher -/

section

/-- `mul_f64`, up to the rounding of doubles. -/
def Duration.mulF64 (d : Duration) (factor : Rat) : Duration := ⟨(d.nanos * factor).floor.toNat⟩

/-- `Duration::max`. -/
def Duration.max (a b : Duration) : Duration := if a.nanos ≤ b.nanos then b else a

namespace WorkflowQueue

/-- How many rows an iteration may ask for, with `running` runs already going here. -/
def maxTasks (queue : WorkflowQueue) (running : Nat) : Nat :=
  Nat.min (match queue.workerConcurrency with
    | some cap => cap - running
    | none => queue.maxTasksPerIteration) queue.maxTasksPerIteration

/-- The claim an iteration makes for one partition. -/
def request (queue : WorkflowQueue) (E : Engine) (partitionKey : Option String) (maxTasks : Nat) :
    DequeueRequest where
  queueName := queue.name
  executorId := E.executorId
  appVersion := E.appVersion
  partitionKey := partitionKey
  maxTasks := maxTasks
  globalConcurrency := queue.globalConcurrency
  rateLimitMax := queue.rateLimit.map (·.limit)
  rateLimitPeriodMs := queue.rateLimit.map (·.period.asMillis)

/-- The polling interval after an iteration: doubled after an error, shrunk otherwise. -/
def nextInterval (queue : WorkflowQueue) (interval : Duration) (hadError : Bool) : Duration :=
  if hadError then Duration.min ⟨interval.nanos * 2⟩ queue.maxPollingInterval
  else Duration.max (interval.mulF64 (9 / 10)) queue.basePollingInterval

end WorkflowQueue

/-- The pause before the next iteration, spread by the clock. -/
def jittered (now : DateTime) (interval : Duration) : Duration :=
  interval.mulF64 (95 / 100 + (now.nanos % 1000 : Int) / 10000)

variable (E : Engine)

/-- Start a claimed row here, or release the claim if its handler is not registered. -/
def dispatchClaimed (wf : WorkflowStatus) : Verb Unit := do
  let key := registryKey wf.name wf.configName
  match E.handler key with
  | some _ => perform (.spawn wf.id key wf.input wf.deadlineMs (AuthContext.fromStatus wf))
  | none =>
    let _ ← attempt (ask (.setWorkflowStatus wf.id .enqueued none none))
    return ()

/-- Claim from one partition and dispatch what was claimed; returns whether the claim failed. -/
def dispatchPartition (queue : WorkflowQueue) (partitionKey : Option String) : Verb Bool := do
  let running ← perform (.localRunning queue.name (partitionKey.getD ""))
  let maxTasks := queue.maxTasks running
  if maxTasks = 0 then return false
  else
    match ← attempt (ask (.dequeueWorkflows (queue.request E partitionKey maxTasks))) with
    | .ok claimed =>
      forEach (dispatchClaimed E) claimed
      return false
    | .error _ => return true

/-- The partitions one after the other; returns whether some claim failed. -/
def dispatchPartitions (queue : WorkflowQueue) : List (Option String) → Verb Bool
  | [] => return false
  | key :: keys => do
      let failed ← dispatchPartition E queue key
      let failedLater ← dispatchPartitions queue keys
      return failed || failedLater

/-- The partitions to claim from, and whether listing them failed. -/
def partitionKeys (queue : WorkflowQueue) : Verb (List (Option String) × Bool) := do
  if queue.partitioned then
    match ← attempt (ask (.queuePartitions queue.name)) with
    | .ok keys => return (keys.map some, false)
    | .error _ => return ([], true)
  else return ([none], false)

def queueDispatchLoop (queue : WorkflowQueue) : Verb Unit :=
  loop (fun interval : Duration => do
    if ← perform .isCancelled then return .inr ()
    else
      let now ← perform .utcNow
      let _ ← attempt (ask (.transitionDelayedWorkflows now.timestampMillis))
      let (keys, listingFailed) ← partitionKeys queue
      let claimFailed ← dispatchPartitions E queue keys
      let interval := queue.nextInterval interval (listingFailed || claimFailed)
      let now ← perform .utcNow
      -- Shutdown wakes the sleeper, which then leaves at the top of the loop.
      let _ ← perform (.sleep (jittered now interval))
      return .inl interval) queue.basePollingInterval

end

/-! ## The system -/

/-- What comes in from outside: a call of the engine by its user, the sweep of a launch or of the
admin endpoint, the dispatcher of a queue. -/
inductive Request : Type 1 where
  | start (uuid : String) (I : Type) [Serde I] (name : String) (input : I) (opts : WorkflowOptions)
  | cancelWorkflow (id : String)
  | cancelWorkflows (ids : List String)
  | resumeWorkflowOn (id queue : String)
  | resumeWorkflowsOn (ids : List String) (queue : String)
  | deleteWorkflows (ids : List String) (deleteChildren : Bool)
  | recoverPendingWorkflows (executorIds : List String)
  | queueDispatchLoop (queue : WorkflowQueue)

/-- A task of the runtime: its result is dropped. -/
def Verb.task {α : Type} (x : Verb α) : Proc Eff Answer Unit := (x {}).bind fun _ => .ret ()

section

variable [Serde DateTime] (P : Provider) (E : Engine)

def Request.run : Request → Proc Eff Answer Unit
  | start uuid I name input opts => (Durare.start E uuid I name input opts).task
  | cancelWorkflow id => (ask (.cancelWorkflow id)).task
  | cancelWorkflows ids => (ask (.cancelWorkflows ids)).task
  | resumeWorkflowOn id queue => (Durare.resumeWorkflowOn id queue).task
  | resumeWorkflowsOn ids queue => (Durare.resumeWorkflowsOn ids queue).task
  | deleteWorkflows ids children => (ask (.deleteWorkflows ids children)).task
  | recoverPendingWorkflows executorIds => (Durare.recoverPendingWorkflows E P executorIds).task
  | queueDispatchLoop queue => (Durare.queueDispatchLoop E queue).task

/-- A dispatcher runs for a registered queue. -/
def Request.Served : Request → Prop
  | queueDispatchLoop queue => queue ∈ E.queues
  | _ => True

/-- The execution an effect starts. -/
def spawned (e : Proc.Event Eff Answer (World P.State)) : List (Proc Eff Answer Unit) :=
  match e.call with
  | .spawn id key input deadlineMs auth => match E.handler key with
    | some handler => [(runToCompletion P E.runtime handler id input deadlineMs auth).task]
    | none => []
  | _ => []

/-- Time passes. -/
def Tick {σ : Type} (w w' : World σ) : Prop := w'.store = w.store ∧ w.clock ≤ w'.clock

/-- **The engine**: any number of requests and executions over one store. -/
def engine : Threads (Proc Eff Answer Unit) (World P.State)
    (Option (Proc.Event Eff Answer (World P.State))) :=
  .ofProc P.handle (spawned P E) (fun _ p => ∃ req : Request, req.Served E ∧ p = req.run P E)
    Tick

end

end Durare
