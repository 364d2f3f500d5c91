import Durare.Context.Effects

/-!
# Context/Verbs — the durable operations

Every method of `DurableContext` a workflow calls, line by line.  They share one shape: take a
sequence number, look for a row recorded there, and either return what the row says or do the work
and record its outcome — the first writer of a row wins.

* `step`, `stepWith`, `select` — user code, checkpointed.
* `sleep`, `now`, `uuid`, `random` — recorded values, which ask no cancellation guard.
* `send`, `recv`, `setEvent`, `getEvent`, `writeStream`, `closeStream` — messages, events, streams;
  `recv` and `getEvent` take a second sequence number for their deadline.
* `startWorkflow`, `transactionWith`, `patch` — children, SQL transactions, patch markers.

Tracing spans and the engine's counters are left out.
-/

namespace Durare

open Verb

/-! ## Contexts -/

/-- The engine as a context sees it: the registered workflow keys and queues, and its identity. -/
structure Runtime where
  workflows : List String
  queues : List String
  executorId : String
  appVersion : String

/-- The immutable part of a context. -/
structure DurableContext where
  workflowId : String
  auth : AuthContext
  runtime : Runtime

/-- The context of the workflow `wf`, with nothing registered. -/
def wfContext : DurableContext := ⟨"wf", {}, ⟨[], [], "local", ""⟩⟩

/-- The prefix of a patch marker's name. -/
def PATCH_PREFIX : String := "DBOS.patch-"

/-- How long a blocked wait polls without push signals. -/
def NOTIFICATION_POLL_INTERVAL : Duration := ⟨25000000⟩

/-- How long it waits with them. -/
def LISTEN_NOTIFY_BACKSTOP : Duration := ⟨5000000000⟩

/-- `serde_json::to_value(v)?`. -/
def toValue {T : Type} [Serde T] (v : T) : Verb Value :=
    ofExcept ((Serde.toValue v).mapError .serde)

/-- `serde_json::from_value(v)?`. -/
def fromValue (T : Type) [Serde T] (v : Value) : Verb T :=
  ofExcept ((Serde.fromValue v).mapError .serde)

section

variable {W : Type*} {T β : Type} [Serde T] {J : Proc.Judge Eff Answer W} {v : T} {j : Value}
  {f : Value → Verb β} {R : Except Error β → CtxState → W → Prop} {s : CtxState} {w : W}

/-- A value that can be written is written. -/
theorem wp_toValue (hj : Serde.toValue v = .ok j) (h : wp J (f j) R s w) :
    wp J (toValue v >>= f) R s w := by
  refine wp_bind ?_
  rw [toValue, hj]
  exact h

theorem wp_toValue_cases (herror : ∀ m, Serde.toValue v = .error m → R (.error (.serde m)) s w)
    (hok : ∀ j, Serde.toValue v = .ok j → wp J (f j) R s w) : wp J (toValue v >>= f) R s w := by
  cases hv : Serde.toValue v with
  | ok j => exact wp_toValue hv (hok j hv)
  | error m =>
    refine wp_bind ?_
    rw [toValue, hv]
    exact herror m hv

end

variable (P : Provider) (ctx : DurableContext)

/-! ## Looking up and recording -/

/-- The recorded outcome at `seq` if there is one, and the cancellation guard if there is none. -/
def replayOrGuard (T : Type) [Serde T] (seq : Int) (expected : String) : Verb (Option T) := do
  match ← ask (.getStepResult ctx.workflowId seq) with
  | some rec =>
    if rec.name ≠ expected then
      fail (.unexpectedStep ctx.workflowId seq expected rec.name)
    else
      let stored ← ofExcept (outcomeValue T rec.outcome)
      return some stored
  | none =>
    match ← ask (.getWorkflowStatus ctx.workflowId) with
    | some status =>
      if status.status = .cancelled then fail (.cancelled ctx.workflowId) else return none
    | none => return none

/-- What follows when there is no row: the cancellation guard, and then the work. -/
def unlessCancelled {β : Type} (work : Verb β) : Verb β := do
  match ← ask (.getWorkflowStatus ctx.workflowId) with
  | some status => if status.status = .cancelled then fail (.cancelled ctx.workflowId) else work
  | none => work

theorem wp_unlessCancelled {W : Type*} {β : Type} {J : Proc.Judge Eff Answer W}
    {ctx : DurableContext}
    {work : Verb β} {R : Except Error β → CtxState → W → Prop} {s : CtxState} {w : W}
    (h : ∀ w₁, J.rely w w₁ → ∀ r w₂,
      J.handle (.provider (.getWorkflowStatus ctx.workflowId)) w₁ r w₂ →
        J.guar (.provider (.getWorkflowStatus ctx.workflowId)) w₁ r w₂ ∧
        match r with
        | .error e => R (.error e) s w₂
        | .ok found =>
          if found.map WorkflowStatus.status = some .cancelled then
            R (.error (.cancelled ctx.workflowId)) s w₂
          else wp J work R s w₂) : wp J (unlessCancelled ctx work) R s w := by
  refine wp_ask fun w₁ hw₁ r w₂ hr => ⟨(h w₁ hw₁ r w₂ hr).1, ?_⟩
  have hnext := (h w₁ hw₁ r w₂ hr).2
  cases r with
  | error e => exact hnext
  | ok found =>
    cases found with
    | none => exact hnext
    | some status =>
      simp only [Option.map_some, Option.some.injEq] at hnext
      rw [after_ok]
      dsimp only
      by_cases hc : status.status = .cancelled
      · rw [if_pos hc] at hnext ⊢
        exact hnext
      · rw [if_neg hc] at hnext ⊢
        exact hnext

section

variable {ctx} {W : Type*} {T β : Type} [Serde T] {J : Proc.Judge Eff Answer W} {seq : Int}
  {expected : String} {f : Option T → Verb β} {R : Except Error β → CtxState → W → Prop}
  {s : CtxState} {w : W}

/-- **A lookup by its answers**: it fails, finds another operation's row, finds its own, or goes on
to the work. -/
theorem wp_replayOrGuard (h : ∀ w₁, J.rely w w₁ → ∀ r w₂,
    J.handle (.provider (.getStepResult ctx.workflowId seq)) w₁ r w₂ →
      J.guar (.provider (.getStepResult ctx.workflowId seq)) w₁ r w₂ ∧
      match r with
      | .error e => R (.error e) s w₂
      | .ok (some rec) =>
        if rec.name = expected then
          after J f R ((outcomeValue T rec.outcome).map some) s w₂
        else R (.error (.unexpectedStep ctx.workflowId seq expected rec.name)) s w₂
      | .ok none => wp J (unlessCancelled ctx (f none)) R s w₂) :
    wp J (replayOrGuard ctx T seq expected >>= f) R s w := by
  refine wp_bind (wp_ask fun w₁ hw₁ r w₂ hr => ⟨(h w₁ hw₁ r w₂ hr).1, ?_⟩)
  have hnext := (h w₁ hw₁ r w₂ hr).2
  cases r with
  | error e => exact hnext
  | ok found =>
    cases found with
    | some rec =>
      dsimp only at hnext
      rw [after_ok]
      dsimp only
      by_cases hname : rec.name = expected
      · rw [if_pos hname] at hnext
        rw [if_neg (not_not_intro hname)]
        refine wp_bind ?_
        rw [wp_ofExcept]
        cases hv : outcomeValue T rec.outcome with
        | error e =>
          rw [hv] at hnext
          exact hnext
        | ok v =>
          rw [hv] at hnext
          exact hnext
      · rw [if_neg hname] at hnext
        rw [if_pos hname]
        exact hnext
    | none =>
      refine wp_ask fun w₃ hw₃ r w₄ hr => ?_
      obtain ⟨hguar, hwork⟩ := hnext w₃ hw₃ r w₄ hr
      refine ⟨hguar, ?_⟩
      cases r with
      | error e => exact hwork
      | ok found =>
        cases found with
        | some status =>
          replace hwork : wp J (if status.status = .cancelled then
            fail (.cancelled ctx.workflowId) else f none) R s w₄ := hwork
          change wp J (if status.status = .cancelled then
            fail (.cancelled ctx.workflowId) else pure none) (after J f R) s w₄
          by_cases hc : status.status = .cancelled
          · rw [if_pos hc] at hwork ⊢
            exact hwork
          · rw [if_neg hc] at hwork ⊢
            exact hwork
        | none => exact hwork

end

/-- Record a success and return what is stored: an earlier writer's outcome, if there was one. -/
def checkpoint (T : Type) [Serde T] (seq : Int) (name : String) (result : T)
    (startedAtMs : Option Int) : Verb T := do
  let json ← toValue result
  let outcome ← ask (.recordStepResult ctx.workflowId seq name json none startedAtMs)
  ofExcept (outcomeValue T outcome)

/-- Record a failure.  The caller gets the live error back, unless an earlier writer recorded a
success. -/
def recordFailure (T : Type) [Serde T] (seq : Int) (name : String) (err : Error)
    (startedAtMs : Option Int) : Verb T := do
  let encoded := encodeError P.text P.serializer err
  let outcome ← ask (.recordStepResult ctx.workflowId seq name .null (some encoded) startedAtMs)
  match outcome with
  | .failure _ _ => fail err
  | .output v => fromValue T v

/-! ## Steps -/

/-- Retry policy of a step. -/
structure StepOptions where
  name : String
  maxRetries : Nat := 0
  backoffFactor : Rat := 2
  baseInterval : Duration := ⟨100000000⟩
  maxInterval : Duration := ⟨5000000000⟩
  retryIf : Option (Error → Bool) := none

/-- The pause before the next attempt: exponential, capped.  The source panics if the product is
negative or more than a `Duration` holds. -/
def retryDelay (base max : Duration) (factor : Rat) (attempt : Nat) : Duration :=
  Duration.min ⟨(base.nanos * factor ^ attempt).floor.toNat⟩ max

/-- Run the closure of a step; a panic becomes an application error. -/
def runStepCatching (T : Type) (seq : Int) (name : String) : Verb (Except Error T) := do
  match ← perform (.closure T seq) with
  | .returned r => return r
  | .panicked payload =>
    return .error (.app ("step `" ++ name ++ "` panicked: " ++ panicMessage payload))

/-- What `step` and `step_with` share: replay the row at `seq`, or attempt the closure and record
how it ended. -/
def checkpointed (T : Type) [Serde T] (seq : Int) (name : String)
    (attempt : Verb (Except Error T)) : Verb T := do
  match ← replayOrGuard ctx T seq name with
  | some stored => return stored
  | none =>
    let started ← perform .utcNow
    match ← attempt with
    | .ok v => checkpoint ctx T seq name v (some started.timestampMillis)
    | .error e => recordFailure P ctx T seq name e (some started.timestampMillis)

def step (T : Type) [Serde T] (name : String) : Verb T := do
  let seq ← nextSeq
  checkpointed P ctx T seq name (runStepCatching T seq name)

/-- Attempt a closure until it succeeds, its error is not worth retrying, or the retries are
used up. -/
def runWithRetries (T : Type) (seq : Int) (opts : StepOptions) : Verb (Except Error T) :=
  loop (fun attempt : Nat => do
    match ← runStepCatching T seq opts.name with
    | .ok v => return .inr (.ok v)
    | .error e =>
      let retryable := opts.retryIf.all fun p => p e
      if !retryable || opts.maxRetries ≤ attempt then return .inr (.error e)
      else
        let _ ← perform (.sleep
          (retryDelay opts.baseInterval opts.maxInterval opts.backoffFactor attempt))
        return .inl (attempt + 1)) 0

def stepWith (T : Type) [Serde T] (opts : StepOptions) : Verb T := do
  let seq ← nextSeq
  checkpointed P ctx T seq opts.name (runWithRetries T seq opts)

/-- Race futures that are not durable operations themselves, and record which one won. -/
def select (T : Type) [Serde T] (branches : Nat) : Verb (Nat × T) := do
  if branches = 0 then fail (.app "select requires at least one branch")
  else
    let seq ← nextSeq
    match ← replayOrGuard ctx (Nat × T) seq "DBOS.select" with
    | some stored => return stored
    | none =>
      let started ← perform .utcNow
      let winner ← perform (.race T seq branches)
      checkpoint ctx (Nat × T) seq "DBOS.select" winner (some started.timestampMillis)

/-! ## Recorded values and timers -/

section Recorded

variable [Serde DateTime]

/-- The recorded instant at `seq`, or `now + dur`, recorded. -/
def durableWakeAt (seq : Int) (dur : Duration) : Verb DateTime := do
  match ← ask (.getStepResult ctx.workflowId seq) with
  | some rec =>
    if rec.name ≠ "DBOS.sleep" then
      fail (.unexpectedStep ctx.workflowId seq "DBOS.sleep" rec.name)
    else ofExcept (outcomeValue DateTime rec.outcome)
  | none =>
    let now ← perform .utcNow
    let json ← toValue (now.addStd dur)
    let outcome ← ask (.recordStepResult ctx.workflowId seq "DBOS.sleep" json none none)
    ofExcept (outcomeValue DateTime outcome)

def sleep (dur : Duration) : Verb Unit := do
  let seq ← nextSeq
  let wakeAt ← durableWakeAt ctx seq dur
  let now ← perform .utcNow
  if wakeAt ≤ now then return ()
  else perform (.sleep (wakeAt.remaining now))

/-- The recorded value at this sequence number, or a fresh one, recorded. -/
def durableValue (T : Type) [Serde T] (name : String) (produce : Int → Verb T) : Verb T := do
  let seq ← nextSeq
  match ← ask (.getStepResult ctx.workflowId seq) with
  | some rec =>
    if rec.name ≠ name then fail (.unexpectedStep ctx.workflowId seq name rec.name)
    else ofExcept (outcomeValue T rec.outcome)
  | none =>
    let value ← produce seq
    let json ← toValue value
    let outcome ← ask (.recordStepResult ctx.workflowId seq name json none none)
    ofExcept (outcomeValue T outcome)

def now : Verb DateTime := durableValue ctx DateTime "DBOS.now" fun seq => perform (.produceNow seq)

def uuid : Verb String := durableValue ctx String "DBOS.uuid" fun seq => do
  let id ← perform (.produceUuid seq)
  return id.text

/-- A double, as far as the library computes one: `mantissa / 2 ^ 48`. -/
structure F64 where
  mantissa : Nat
  deriving DecidableEq, Repr

instance : Serde F64 where
  toValue x := .ok (.number (.float x.mantissa (-48)))
  fromValue
    | .number (.float (.ofNat m) (-48)) => .ok ⟨m⟩
    | v => .error (Serde.invalidType (Serde.unexpected v) "f64")

instance : LawfulSerde F64 := ⟨fun x => ⟨.number (.float x.mantissa (-48)), rfl, rfl⟩⟩

/-- The first six bytes of a uuid, read as a fraction of `2 ^ 48`. -/
def fraction (id : Uuid) : F64 :=
  ⟨(List.range 6).foldl (fun acc i => acc * 256 + (id.bytes[i]?.getD 0).val) 0⟩

def random : Verb F64 := durableValue ctx F64 "DBOS.random" fun seq => do
  let id ← perform (.produceUuid seq)
  return fraction id

end Recorded

/-! ## Messages and events -/

def send (T : Type) [Serde T] (destinationId : String) (message : T) (topic : String) :
    Verb Unit := do
  let seq ← nextSeq
  match ← replayOrGuard ctx Value seq "DBOS.send" with
  | some _ => return ()
  | none =>
    let json ← toValue message
    let _ ← ask (.insertNotification destinationId topic json none)
    let _ ← ask (.recordStepResult ctx.workflowId seq "DBOS.send" .null none none)
    return ()

/-- How long one poll of a blocked wait lasts. -/
def waitInterval : Duration :=
  if P.supportsListenNotify then LISTEN_NOTIFY_BACKSTOP else NOTIFICATION_POLL_INTERVAL

section Waiting

variable [Serde DateTime]

/-- The deadline of a wait: read or recorded once, then remembered. -/
def deadlineOf (deadlineSeq : Int) (timeout : Duration) : Option DateTime → Verb DateTime
  | some d => return d
  | none => durableWakeAt ctx deadlineSeq timeout

/-- Past the deadline record the timeout, before it wait for a change. -/
def timeOutOrWait (T : Type) (seq : Int) (name : String) (wait : ChangeWait)
    (deadline : DateTime) : Verb (Option DateTime ⊕ Option T) := do
  let now ← perform .utcNow
  if deadline ≤ now then
    let _ ← ask (.recordStepResult ctx.workflowId seq name .null none none)
    return .inr none
  else
    let _ ← perform (.awaitChange wait (Duration.min (deadline.remaining now) (waitInterval P)))
    return .inl (some deadline)

/-- What a wait does when it found nothing. -/
def waitOrTimeOut (T : Type) (seq deadlineSeq : Int) (name : String) (timeout : Duration)
    (wait : ChangeWait) (deadline : Option DateTime) : Verb (Option DateTime ⊕ Option T) := do
  let deadline ← deadlineOf ctx deadlineSeq timeout deadline
  timeOutOrWait P ctx T seq name wait deadline

/-- A wait that found nothing, by its parts: the deadline, the clock, and then the timeout or the
next wait. -/
theorem wp_waitOrTimeOut {W : Type*} {T : Type} {J : Proc.Judge Eff Answer W} {P : Provider}
    {ctx : DurableContext} {seq m : Int} {name : String} {timeout : Duration} {wait : ChangeWait}
    {deadline : Option DateTime} {R : Except Error (Option DateTime ⊕ Option T) →
      CtxState → W → Prop}
    {s : CtxState} {w : W} (I : CtxState → W → Prop)
    (hdeadline : wp J (deadlineOf ctx m timeout deadline) (fun r s' w' => match r with
      | .ok _ => I s' w'
      | .error e => R (.error e) s' w') s w)
    (hnow : ∀ s w w₁ now w₂, I s w → J.rely w w₁ → J.handle .utcNow w₁ now w₂ →
      J.guar .utcNow w₁ now w₂ ∧ I s w₂)
    (htimeout : ∀ s w w₁ r w₂, I s w → J.rely w w₁ →
      J.handle (.provider (.recordStepResult ctx.workflowId seq name .null none none)) w₁ r w₂ →
        J.guar (.provider (.recordStepResult ctx.workflowId seq name .null none none)) w₁ r w₂ ∧
        R (r.map fun _ => .inr none) s w₂)
    (hwait : ∀ s w w₁ d within r w₂, I s w → J.rely w w₁ →
      J.handle (.awaitChange wait within) w₁ r w₂ →
        J.guar (.awaitChange wait within) w₁ r w₂ ∧ R (.ok (.inl (some d))) s w₂) :
    wp J (waitOrTimeOut P ctx T seq m name timeout wait deadline) R s w := by
  refine wp_bind (wp_mono ?_ hdeadline)
  rintro (e | d) s' w' hI
  · exact hI
  · rw [after_ok]
    refine wp_perform fun w₁ hw₁ now w₂ hr => ?_
    obtain ⟨hguar, hI₂⟩ := hnow s' w' w₁ now w₂ hI hw₁ hr
    refine ⟨hguar, ?_⟩
    split
    · refine wp_ask fun w₃ hw₃ r w₄ hr => ?_
      obtain ⟨hguar, hR⟩ := htimeout s' w₂ w₃ r w₄ hI₂ hw₃ hr
      refine ⟨hguar, ?_⟩
      cases r with
      | error e => exact hR
      | ok out => exact hR
    · exact wp_perform fun w₃ hw₃ r w₄ hr => hwait s' w₂ w₃ d _ r w₄ hI₂ hw₃ hr

def recv (T : Type) [Serde T] (topic : String) (timeout : Duration) : Verb (Option T) := do
  let seq ← nextSeq
  let deadlineSeq ← nextSeq
  match ← replayOrGuard ctx (Option T) seq "DBOS.recv" with
  | some stored => return stored
  | none =>
    loop (fun deadline => do
      match ← ask (.consumeNotification ctx.workflowId topic seq "DBOS.recv") with
      | some msg =>
        let v ← fromValue T msg
        return .inr (some v)
      | none =>
        waitOrTimeOut P ctx T seq deadlineSeq "DBOS.recv" timeout
          (.notification ctx.workflowId topic) deadline) none

def getEvent (T : Type) [Serde T] (targetWorkflowId key : String) (timeout : Duration) :
    Verb (Option T) := do
  let seq ← nextSeq
  let deadlineSeq ← nextSeq
  match ← replayOrGuard ctx (Option T) seq "DBOS.getEvent" with
  | some stored => return stored
  | none =>
    loop (fun deadline => do
      match ← ask (.getEventValue targetWorkflowId key) with
      | some value =>
        let outcome ← ask (.recordStepResult ctx.workflowId seq "DBOS.getEvent" value none none)
        let v ← ofExcept (outcomeValue T outcome)
        return .inr (some v)
      | none =>
        waitOrTimeOut P ctx T seq deadlineSeq "DBOS.getEvent" timeout
          (.event targetWorkflowId key) deadline) none

end Waiting

def setEvent (T : Type) [Serde T] (key : String) (value : T) : Verb Unit := do
  let seq ← nextSeq
  match ← replayOrGuard ctx Value seq "DBOS.setEvent" with
  | some _ => return ()
  | none =>
    let json ← toValue value
    let _ ← ask (.upsertEvent ctx.workflowId key json)
    let _ ← ask (.recordStepResult ctx.workflowId seq "DBOS.setEvent" .null none none)
    return ()

/-! ## Streams -/

def writeStream (T : Type) [Serde T] (key : String) (value : T) : Verb Unit := do
  let seq ← nextSeq
  match ← replayOrGuard ctx Value seq "DBOS.writeStream" with
  | some _ => return ()
  | none =>
    let json ← toValue value
    let _ ← ask (.writeStream ctx.workflowId key (some json) seq)
    let _ ← ask (.recordStepResult ctx.workflowId seq "DBOS.writeStream" .null none none)
    return ()

def closeStream (key : String) : Verb Unit := do
  let seq ← nextSeq
  match ← replayOrGuard ctx Value seq "DBOS.closeStream" with
  | some _ => return ()
  | none =>
    let _ ← ask (.writeStream ctx.workflowId key none seq)
    let _ ← ask (.recordStepResult ctx.workflowId seq "DBOS.closeStream" .null none none)
    return ()

/-! ## Children -/

/-- What a deduplication collision does to the caller. -/
inductive DeduplicationPolicy where
  | reject
  | returnExisting
  deriving DecidableEq, Repr

/-- Options of a new run. -/
structure WorkflowOptions where
  workflowId : Option String := none
  dedupId : Option String := none
  dedupPolicy : DeduplicationPolicy := .reject
  appVersion : Option String := none
  queue : Option String := none
  priority : Int := 0
  partitionKey : Option String := none
  timeout : Option Duration := none
  delay : Option Duration := none
  authenticatedUser : Option String := none
  assumedRole : Option String := none
  authenticatedRoles : List String := []
  configName : Option String := none
  className : Option String := none

/-- The key a workflow is registered under. -/
def registryKey (name : String) : Option String → String
  | some c => if c = "" then name else name ++ "/" ++ c
  | none => name

/-- The row of a new run, before it is inserted.  The clock is read once for the delay and once for
the creation time. -/
def newRun (rt : Runtime) (nowMs : Int) (created : DateTime) (id name : String) (input : Value)
    (opts : WorkflowOptions) (parentId : Option String) (auth : AuthContext) : WorkflowStatus :=
  let status : Status := match opts.queue, opts.delay with
    | none, _ => .pending
    | some _, none => .enqueued
    | some _, some _ => .delayed
  let executor := if opts.queue.isSome then "" else rt.executorId
  let timeoutMs := opts.timeout.map Duration.asMillis
  let direct := opts.queue.isNone
  let createdMs := created.timestampMillis
  { WorkflowStatus.new created id name input status executor
      (opts.appVersion.getD rt.appVersion) with
    queueName := opts.queue
    priority := opts.priority
    queuePartitionKey := opts.partitionKey
    dedupId := opts.dedupId
    parentWorkflowId := parentId
    authenticatedUser := auth.authenticatedUser
    assumedRole := auth.assumedRole
    authenticatedRoles := auth.authenticatedRoles
    className := opts.className
    configName := opts.configName
    timeoutMs := timeoutMs
    delayUntilMs := opts.delay.map fun d => i64 (nowMs + d.asMillis)
    startedAtMs := if direct then some createdMs else none
    deadlineMs := if direct then timeoutMs.map fun t => i64 (createdMs + t) else none }

/-- Check the options and insert the row of a new run; an existing row is returned unchanged. -/
def insertRun (rt : Runtime) (id name : String) (input : Value) (opts : WorkflowOptions)
    (parentId : Option String) (auth : AuthContext) : Verb (WorkflowStatus × Bool × Bool) := do
  match opts.queue with
  | some q => if q ∉ rt.queues then fail (.unknownQueue q) else insert
  | none =>
    if opts.delay.isSome then
      fail (.app "WorkflowOptions.delay requires a queue; direct runs start immediately")
    else insert
where
  /-- the insertion itself -/
  insert : Verb (WorkflowStatus × Bool × Bool) := do
    let now ← perform .utcNow
    let createdAt ← perform .utcNow
    let (canonical, created) ← ask (.insertWorkflowStatus
      (newRun rt now.timestampMillis createdAt id name input opts parentId auth))
    return (canonical, opts.queue.isSome, created)

/-- Insert a child's row, and run it here unless it is queued or already over. -/
def spawnChild (rt : Runtime) (childId name : String) (input : Value) (opts : WorkflowOptions)
    (parentId : String) (auth : AuthContext) : Verb Unit := do
  let key := registryKey name opts.configName
  if key ∉ rt.workflows then fail (.unknownWorkflow name)
  else
    let (canonical, queued, _) ← insertRun rt childId name input opts (some parentId) auth
    if !queued && !canonical.status.isTerminal then
      perform (.spawn childId key canonical.input canonical.deadlineMs auth)
    else return ()

/-- The id of a child: the one asked for, or the parent's id and sequence number. -/
def childIdOf (opts : WorkflowOptions) (seq : Int) : String :=
  match opts.workflowId with
  | some id => if id = "" then ctx.workflowId ++ "-" ++ toString seq else id
  | none => ctx.workflowId ++ "-" ++ toString seq

/-- A child acts for the identity in its options, and for its parent's where they leave it open. -/
def childAuthOf (opts : WorkflowOptions) : AuthContext where
  authenticatedUser := opts.authenticatedUser.or ctx.auth.authenticatedUser
  assumedRole := opts.assumedRole.or ctx.auth.assumedRole
  authenticatedRoles :=
    if opts.authenticatedRoles.isEmpty then ctx.auth.authenticatedRoles
    else opts.authenticatedRoles

/-- Start a child, or re-attach to the one recorded here; the handle polls the returned id. -/
def startWorkflow (I : Type) [Serde I] (name : String) (input : I) (opts : WorkflowOptions) :
    Verb String := do
  let seq ← nextSeq
  match ← ask (.checkChildWorkflow ctx.workflowId seq) with
  | some (childId, recorded) =>
    if recorded ≠ name then fail (.unexpectedStep ctx.workflowId seq name recorded)
    else return childId
  | none =>
    let childId := childIdOf ctx opts seq
    let json ← toValue input
    let opts := { opts with workflowId := some childId }
    spawnChild ctx.runtime childId name json opts ctx.workflowId (childAuthOf ctx opts)
    let _ ← ask (.recordChildWorkflow ctx.workflowId seq name childId)
    return childId

/-! ## Transactions and patches -/

/-- Set the transaction flag and return what it was. -/
def swapInTransaction : Verb Bool := fun s =>
  .ret (.ok s.inTransaction, { s with inTransaction := true })

/-- Clear the transaction flag when `x` is over, however it ends. -/
def resetOnDrop {α : Type} (x : Verb α) : Verb α := fun s =>
  (x s).bind fun r => .ret (r.1, { r.2 with inTransaction := false })

theorem wp_resetOnDrop {W : Type*} {α : Type} {J : Proc.Judge Eff Answer W} {x : Verb α}
    {R : Except Error α → CtxState → W → Prop} {s : CtxState} {w : W}
    (h : wp J x (fun r s' w' => R r { s' with inTransaction := false } w') s w) :
    wp J (resetOnDrop x) R s w := Proc.wp_bind h

/-- The backend's own part of a transactional step. -/
def runTransactionStep (seq startedAtMs : Int) (opts : TransactionOptions) : Verb Value := fun s =>
  (P.runTransactionStep ctx.workflowId seq startedAtMs opts).bind fun r => .ret (r, s)

def transactionWith (T : Type) [Serde T] (opts : TransactionOptions) : Verb T := do
  if ← swapInTransaction then
    fail (.app "cannot start a transaction inside another transaction")
  else
    resetOnDrop do
      let seq ← nextSeq
      let started ← perform .utcNow
      let value ← runTransactionStep P ctx seq started.timestampMillis opts
      fromValue T value

/-- The precondition of a transactional step: that of the backend's own part, after the clock was
read. -/
theorem wp_transactionWith {W : Type*} {T : Type} [Serde T]
    {J : Proc.Judge Eff Answer W} {P : Provider}
    {ctx : DurableContext} {opts : TransactionOptions} {R : Except Error T → CtxState → W → Prop}
    {s : CtxState} {w : W} (hs : s.inTransaction = false)
    (h : ∀ w₁, J.rely w w₁ → ∀ started w₂, J.handle .utcNow w₁ started w₂ →
      J.guar .utcNow w₁ started w₂ ∧
      Proc.wp J (P.runTransactionStep ctx.workflowId s.seq started.timestampMillis opts)
        (fun r w' => R (r >>= fun v => (Serde.fromValue v).mapError .serde)
          { s with seq := s.seq + 1 } w') w₂) :
    wp J (transactionWith P ctx T opts) R s w := by
  obtain ⟨seq, flag⟩ := s
  cases hs
  change wp J (resetOnDrop (nextSeq >>= fun seq => perform .utcNow >>= fun started =>
    runTransactionStep P ctx seq started.timestampMillis opts >>= fromValue T)) R ⟨seq, true⟩ w
  refine wp_resetOnDrop (wp_nextSeq (wp_perform fun w₁ hw₁ started w₂ hr => ?_))
  obtain ⟨hguar, hstep⟩ := h w₁ hw₁ started w₂ hr
  refine ⟨hguar, wp_bind (Proc.wp_bind (Proc.wp_mono ?_ hstep))⟩
  rintro (e | v) w' hR
  · exact hR
  · exact hR

/-- Whether the code after this point is the patched one; a fresh marker takes a sequence number. -/
def patch (name : String) : Verb Bool := do
  let seq ← currentStepId
  let marker := PATCH_PREFIX ++ name
  match ← ask (.getStepName ctx.workflowId seq) with
  | none =>
    let _ ← ask (.recordPatch ctx.workflowId seq marker)
    let _ ← nextSeq
    return true
  | some recorded =>
    if recorded = marker then
      let _ ← nextSeq
      return true
    else return false

end Durare
