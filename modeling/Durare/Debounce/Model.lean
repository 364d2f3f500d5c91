import Durare.Engine.Runtime

/-!
# Debounce/Model — the debouncer, line by line

A debounced call takes a key, a delay and an input.  The first call of a key starts a **collector**,
a workflow on the internal queue whose deduplication id is the key; every later one sends its input
to the collector that holds the key and waits for the acknowledgement.  The collector takes messages
until none has come for the delay of the last one, and then starts the target with the last input.

* `internalDebouncer` — the collector; `runCollector` — an execution of it.
* `runDebounce` — a call, through an engine or through a client.

The uuids a call draws are an argument of it.  Structs are read from objects; the sequence form that
`serde` would also accept is never written.
-/

namespace Durare

open Verb

/-! ## Durations -/

/-- `Duration::from_millis(ms as u64)`. -/
def Duration.fromMillis (ms : Int) : Duration := ⟨(ms % 0x10000000000000000).toNat * 1000000⟩

namespace Debounce

/-! ## Messages -/

def DEBOUNCER_WF : String := "_dbos_debouncer"

def DEBOUNCER_TOPIC : String := "_dbos_debouncer_topic"

def START_TIME : String := "DBOS.debounce.startTime"

def LOOP_TIME : String := "DBOS.debounce.loopTime"

/-- How long a call waits for the acknowledgement of its message. -/
def ACK_TIMEOUT : Duration := ⟨2000000000⟩

/-- The options of the target that the collector passes on. -/
structure TargetOptions where
  queue : Option String := none
  priority : Int := 0
  partitionKey : Option String := none
  appVersion : Option String := none
  timeoutMs : Option Int := none
  authenticatedUser : Option String := none
  assumedRole : Option String := none
  authenticatedRoles : List String := []
  deriving DecidableEq

/-- `into_options`: the options of the target, under its id. -/
def TargetOptions.intoOptions (o : TargetOptions) (targetId : String) : WorkflowOptions where
  workflowId := some targetId
  queue := o.queue
  priority := o.priority
  partitionKey := o.partitionKey
  appVersion := o.appVersion
  timeout := o.timeoutMs.map Duration.fromMillis
  authenticatedUser := o.authenticatedUser
  assumedRole := o.assumedRole
  authenticatedRoles := o.authenticatedRoles

/-- The input of a collector. -/
structure DebouncerInput where
  targetName : String
  targetId : String
  delayMs : Int
  timeoutMs : Int
  initialInput : Value
  targetOpts : TargetOptions := {}

/-- An input sent to a running collector; `id` is the key of the event that acknowledges it. -/
structure DebounceMessage where
  input : Value
  delayMs : Int
  id : String

/-- An optional field as JSON. -/
def optionJson {T : Type} (json : T → Value) : Option T → Value
  | none => .null
  | some v => json v

def TargetOptions.fields (o : TargetOptions) : List (String × Value) :=
  [("queue", optionJson .string o.queue), ("priority", .number (.int o.priority)),
    ("partition_key", optionJson .string o.partitionKey),
    ("app_version", optionJson .string o.appVersion),
    ("timeout_ms", optionJson (fun n => .number (.int n)) o.timeoutMs),
    ("authenticated_user", optionJson .string o.authenticatedUser),
    ("assumed_role", optionJson .string o.assumedRole),
    ("authenticated_roles", .array (o.authenticatedRoles.map .string))]

def DebouncerInput.fields (i : DebouncerInput) : List (String × Value) :=
  [("target_name", .string i.targetName), ("target_id", .string i.targetId),
    ("delay_ms", .number (.int i.delayMs)), ("timeout_ms", .number (.int i.timeoutMs)),
    ("initial_input", i.initialInput), ("target_opts", .object i.targetOpts.fields)]

def DebounceMessage.fields (m : DebounceMessage) : List (String × Value) :=
  [("input", m.input), ("delay_ms", .number (.int m.delayMs)), ("id", .string m.id)]

/-- Strings in an array. -/
def strings : List Value → Except String (List String)
  | [] => .ok []
  | v :: vs => do
      let t ← Serde.fromValue v
      let ts ← strings vs
      return t :: ts

instance : Serde (List String) where
  toValue ts := .ok (.array (ts.map .string))
  fromValue
    | .array vs => strings vs
    | v => .error (Serde.invalidType (Serde.unexpected v) "a sequence")

def TargetOptions.read : Value → Except String TargetOptions
  | .object fields => do
      let queue ← Serde.optional (Option String) none fields "queue"
      let priority ← Serde.required Int fields "priority"
      let partitionKey ← Serde.optional (Option String) none fields "partition_key"
      let appVersion ← Serde.optional (Option String) none fields "app_version"
      let timeoutMs ← Serde.optional (Option Int) none fields "timeout_ms"
      let authenticatedUser ← Serde.optional (Option String) none fields "authenticated_user"
      let assumedRole ← Serde.optional (Option String) none fields "assumed_role"
      let authenticatedRoles ← Serde.required (List String) fields "authenticated_roles"
      return { queue, priority, partitionKey, appVersion, timeoutMs, authenticatedUser, assumedRole,
               authenticatedRoles }
  | v => .error (Serde.invalidType (Serde.unexpected v) "struct TargetOptions")

instance : Serde TargetOptions := ⟨fun o => .ok (.object o.fields), TargetOptions.read⟩

/-- The options of the target are left at their default when they are absent. -/
def DebouncerInput.read : Value → Except String DebouncerInput
  | .object fields => do
      let targetName ← Serde.required String fields "target_name"
      let targetId ← Serde.required String fields "target_id"
      let delayMs ← Serde.required Int fields "delay_ms"
      let timeoutMs ← Serde.required Int fields "timeout_ms"
      let initialInput ← Serde.required Value fields "initial_input"
      let targetOpts ← Serde.optional TargetOptions {} fields "target_opts"
      return { targetName, targetId, delayMs, timeoutMs, initialInput, targetOpts }
  | v => .error (Serde.invalidType (Serde.unexpected v) "struct DebouncerInput")

instance : Serde DebouncerInput := ⟨fun i => .ok (.object i.fields), DebouncerInput.read⟩

def DebounceMessage.read : Value → Except String DebounceMessage
  | .object fields => do
      let input ← Serde.required Value fields "input"
      let delayMs ← Serde.required Int fields "delay_ms"
      let id ← Serde.required String fields "id"
      return { input, delayMs, id }
  | v => .error (Serde.invalidType (Serde.unexpected v) "struct DebounceMessage")

instance : Serde DebounceMessage := ⟨fun m => .ok (.object m.fields), DebounceMessage.read⟩

/-! ## What is written is read back -/

theorem strings_map : ∀ ts : List String, strings (ts.map .string) = .ok ts
  | [] => rfl
  | t :: ts => by
    rw [List.map_cons, strings, strings_map ts]
    rfl

theorem read_text (t : Option String) :
    Serde.fromValue (T := Option String) (optionJson .string t) = .ok t := by
  cases t <;> rfl

theorem read_number (n : Option Int) :
    Serde.fromValue (T := Option Int) (optionJson (fun n => .number (.int n)) n) = .ok n := by
  cases n <;> rfl

theorem read_targetOptions (o : TargetOptions) :
    TargetOptions.read (.object o.fields) = .ok o := by
  have hqueue : Serde.optional (Option String) none o.fields "queue" = .ok o.queue :=
    Serde.optional_eq rfl (read_text _)
  have hpartition : Serde.optional (Option String) none o.fields "partition_key" =
      .ok o.partitionKey := Serde.optional_eq rfl (read_text _)
  have hversion : Serde.optional (Option String) none o.fields "app_version" = .ok o.appVersion :=
    Serde.optional_eq rfl (read_text _)
  have htimeout : Serde.optional (Option Int) none o.fields "timeout_ms" = .ok o.timeoutMs :=
    Serde.optional_eq rfl (read_number _)
  have huser : Serde.optional (Option String) none o.fields "authenticated_user" =
      .ok o.authenticatedUser := Serde.optional_eq rfl (read_text _)
  have hrole : Serde.optional (Option String) none o.fields "assumed_role" = .ok o.assumedRole :=
    Serde.optional_eq rfl (read_text _)
  have hroles : Serde.required (List String) o.fields "authenticated_roles" =
      .ok o.authenticatedRoles := Serde.required_eq rfl (strings_map _)
  rw [TargetOptions.read, hqueue, hpartition, hversion, htimeout, huser, hrole, hroles]
  rfl

instance : LawfulSerde TargetOptions := ⟨fun o => ⟨_, rfl, read_targetOptions o⟩⟩

theorem read_debouncerInput (i : DebouncerInput) :
    DebouncerInput.read (.object i.fields) = .ok i := by
  have hopts : Serde.optional TargetOptions {} i.fields "target_opts" = .ok i.targetOpts :=
    Serde.optional_eq rfl (read_targetOptions _)
  rw [DebouncerInput.read, hopts]
  rfl

instance : LawfulSerde DebouncerInput := ⟨fun i => ⟨_, rfl, read_debouncerInput i⟩⟩

instance : LawfulSerde DebounceMessage := ⟨fun _ => ⟨_, rfl, rfl⟩⟩

/-! ## The collector -/

/-- A start time past the cap is the cap. -/
def DebouncerInput.cap (input : DebouncerInput) (start t : Int) : Int :=
  let maxMs := i64 (start + input.timeoutMs)
  if input.timeoutMs > 0 ∧ t > maxMs then maxMs else t

section

variable (P : Provider) (ctx : DurableContext)

/-- `ctx.step(name, || async { Ok(now_ms()) })`. -/
def timeStep (name : String) : Verb Int := do
  let seq ← nextSeq
  checkpointed P ctx Int seq name do
    let now ← perform .utcNow
    return .ok now.timestampMillis

variable [Serde DateTime]

/-- One round: leave with the current input when the time has come or no message does, or take a
message and acknowledge it. -/
def debounceRound (input : DebouncerInput) (start : Int) (st : Int × Value) :
    Verb ((Int × Value) ⊕ Value) := do
  let (targetMs, current) := st
  let now ← timeStep P ctx LOOP_TIME
  let remaining := i64 (targetMs - now)
  if remaining ≤ 0 then return .inr current
  else
    match ← recv P ctx DebounceMessage DEBOUNCER_TOPIC (.fromMillis remaining) with
    | none => return .inr current
    | some msg =>
      -- The new start time counts from the reading before the wait.
      let targetMs := input.cap start (i64 (now + msg.delayMs))
      if msg.id = "" then return .inl (targetMs, msg.input)
      else
        setEvent ctx Bool msg.id true
        return .inl (targetMs, msg.input)

def internalDebouncer (input : DebouncerInput) : Verb Unit := do
  let start ← timeStep P ctx START_TIME
  let current ← loop (debounceRound P ctx input start)
    (input.cap start (i64 (start + input.delayMs)), input.initialInput)
  let _ ← startWorkflow ctx Value input.targetName current
    (input.targetOpts.intoOptions input.targetId)
  return ()

/-- The collector as it is registered, `erase(internal_debouncer)`. -/
def debouncerFn (input : Value) : Verb Value := do
  let input ← fromValue DebouncerInput input
  internalDebouncer P ctx input
  toValue ()

end

/-- `run_to_completion` of a collector.  Its row has no deadline, and its body does not panic. -/
def runCollector [Serde DateTime] (P : Provider) (rt : Runtime) (id : String) (input : Value)
    (auth : AuthContext) : Verb Value := do
  let caught ← ofProc ((debouncerFn P ⟨id, auth, rt⟩ input {}).bind fun r => .ret (.returned r.1))
  conclude P id caught

/-! ## Calls -/

/-- The row of an enqueued run, as a client inserts it. -/
def clientRow (appVersion : String) (nowMs : Int) (created : DateTime) (id queue name : String)
    (input : Value) (opts : WorkflowOptions) : WorkflowStatus :=
  { WorkflowStatus.new created id name input (if opts.delay.isSome then .delayed else .enqueued) ""
      (opts.appVersion.getD appVersion) with
    queueName := some queue
    priority := opts.priority
    queuePartitionKey := opts.partitionKey
    dedupId := opts.dedupId
    authenticatedUser := opts.authenticatedUser
    assumedRole := opts.assumedRole
    authenticatedRoles := opts.authenticatedRoles
    className := opts.className
    configName := opts.configName
    timeoutMs := opts.timeout.map Duration.asMillis
    delayUntilMs := opts.delay.map fun d => i64 (nowMs + d.asMillis) }

/-- One attempt of a client to insert its row. -/
def insertOrHolder (row : WorkflowStatus) (queue : String) (opts : WorkflowOptions) :
    Verb (Unit ⊕ String) := do
  match ← attempt (ask (.insertWorkflowStatus row)) with
  | .ok _ => return .inr row.id
  | .error e =>
    if opts.dedupPolicy = .returnExisting ∧ e.code = .queueDeduplicated then
      match ← ask (.getDeduplicatedWorkflow queue (opts.dedupId.getD "")) with
      | some existing => return .inr existing
      | none => return .inl ()
    else fail e

/-- `Client::enqueue`; the handle it returns is its id. -/
def clientEnqueue (appVersion uuid : String) (I : Type) [Serde I] (queue name : String) (input : I)
    (opts : WorkflowOptions) : Verb String := do
  if queue = "" then fail (.app "queue name is required")
  else if name = "" then fail (.app "workflow name is required")
  else if opts.partitionKey.isSome ∧ opts.dedupId.isSome then
    fail (.app "partition key and deduplication id cannot be used together")
  else if opts.dedupPolicy ≠ .reject ∧ opts.dedupId = none then
    fail (.app "a deduplication policy requires a deduplication id")
  else
    let now ← perform .utcNow
    let json ← toValue input
    let created ← perform .utcNow
    let row := clientRow appVersion now.timestampMillis created (opts.workflowId.getD uuid) queue
      name json opts
    loop (fun _ : Unit => insertOrHolder row queue opts) ()

/-- Who makes a debounced call: an engine, or a client outside of any. -/
inductive Caller where
  | engine (E : Engine)
  | client (appVersion : String)

/-- `enqueue_debouncer`. -/
def enqueueDebouncer (uuid : String) (input : DebouncerInput) (key : String) : Caller → Verb Unit
  | .engine E => do
      let _ ← start E uuid DebouncerInput DEBOUNCER_WF input
        { dedupId := some key, queue := some INTERNAL_QUEUE }
      return ()
  | .client appVersion => do
      let _ ← clientEnqueue appVersion uuid DebouncerInput INTERNAL_QUEUE DEBOUNCER_WF input
        { dedupId := some key }
      return ()

/-- `send` of an engine or a client. -/
def sendFrom (T : Type) [Serde T] (destination : String) (message : T) (topic : String) :
    Verb Unit := do
  let json ← toValue message
  ask (.insertNotification destination topic json none)

/-- `get_event` of an engine or a client.  Its deadline is one of the monotonic clock, which is not
told apart from the other one here. -/
def getEventFrom (T : Type) [Serde T] (target key : String) (timeout : Duration) :
    Verb (Option T) := do
  let now ← perform .utcNow
  let deadline : DateTime := ⟨now.nanos + timeout.nanos⟩
  loop (fun _ : Unit => do
    match ← ask (.getEventValue target key) with
    | some value =>
      let v ← fromValue T value
      return .inr (some v)
    | none =>
      let now ← perform .utcNow
      if deadline ≤ now then return .inr none
      else
        let _ ← perform (.sleep (Duration.min (deadline.remaining now) ⟨25000000⟩))
        return .inl ()) ()

/-- A debounced call: who makes it, for which target, key and input.  Round `n` of its loop draws
three uuids. -/
structure Call where
  caller : Caller
  target : String
  timeout : Duration
  targetOpts : TargetOptions
  key : String
  delay : Duration
  input : Value
  draws : Nat → String

namespace Call

/-- The id of the target a round draws. -/
def targetId (c : Call) (n : Nat) : String := c.draws (3 * n)

/-- The id of the collector a round would start. -/
def collectorId (c : Call) (n : Nat) : String := c.draws (3 * n + 1)

/-- The id of the message a round would send. -/
def messageId (c : Call) (n : Nat) : String := c.draws (3 * n + 2)

def debouncerInput (c : Call) (n : Nat) : DebouncerInput where
  targetName := c.target
  targetId := c.targetId n
  delayMs := c.delay.asMillis
  timeoutMs := c.timeout.asMillis
  initialInput := c.input
  targetOpts := c.targetOpts

def message (c : Call) (n : Nat) : DebounceMessage where
  input := c.input
  delayMs := c.delay.asMillis
  id := c.messageId n

/-- Push the input to the collector that holds the key. -/
def push (c : Call) (n : Nat) : Verb (Nat ⊕ String) := do
  match ← ask (.getDeduplicatedWorkflow INTERNAL_QUEUE c.key) with
  | none => return .inl (n + 1)
  | some existing =>
    match ← ask (.getWorkflowStatus existing) with
    | none => return .inl (n + 1)
    | some status =>
      let existingInput ← fromValue DebouncerInput status.input
      sendFrom DebounceMessage existing (c.message n) DEBOUNCER_TOPIC
      match ← getEventFrom Bool existing (c.messageId n) ACK_TIMEOUT with
      | none => return .inl (n + 1)
      | some _ => return .inr existingInput.targetId

/-- One round: start a collector, or push the input to the one that is there. -/
def round (c : Call) (n : Nat) : Verb (Nat ⊕ String) := do
  match ← attempt (enqueueDebouncer (c.collectorId n) (c.debouncerInput n) c.key c.caller) with
  | .ok _ => return .inr (c.targetId n)
  | .error e => if e.code = .queueDeduplicated then c.push n else fail e

/-- `run_debounce`. -/
def runDebounce (c : Call) : Verb String := loop c.round 0

end Call

end Debounce

end Durare
