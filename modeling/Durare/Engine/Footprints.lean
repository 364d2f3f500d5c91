import Durare.Context.Footprints
import Durare.Engine.Runtime

/-!
# Engine/Footprints — which calls the engine's functions can make

A durable operation never writes a status.  The statuses are written by the engine's own functions,
each with fixed texts (`Writes`); the write of an expired deadline is kept apart (`Eff.Overdue`),
since only an execution whose timer has fired makes it.
-/

namespace Durare

open Verb

/-! ## Status writes -/

/-- The status writes of the engine other than that of an expired deadline, with their texts. -/
inductive Writes : Status → Option Value → Option String → Prop where
  | success {v : Value} : Writes .success (some v) none
  | error {e : String} : Writes .error none (some e)
  | cancelled : Writes .cancelled none (some "cancelled")
  | enqueued : Writes .enqueued none none

/-- An effect of the engine other than the write of an expired deadline. -/
def Eff.Quiet : Eff → Prop
  | .provider (.setWorkflowStatus _ status output error) => Writes status output error
  | .provider (.insertWorkflowStatus status) => status.status.isTerminal = false
  | _ => True

/-- An effect of the engine outside the executions: it releases claims, and writes no stream. -/
def Eff.Routine : Eff → Prop
  | .provider (.setWorkflowStatus _ status output error) =>
    status = .enqueued ∧ output = none ∧ error = none
  | .provider (.insertWorkflowStatus status) => status.status.initial = true
  | .provider (.writeStream _ _ _ _) => False
  | _ => True

variable {e : Eff}

theorem Eff.Routine.quiet (h : e.Routine) : e.Quiet := by
  cases e with
  | provider c =>
    cases c with
    | setWorkflowStatus id status output error =>
      obtain ⟨rfl, rfl, rfl⟩ := h
      exact .enqueued
    | insertWorkflowStatus status => exact not_isTerminal_of_initial h
    | _ => trivial
  | _ => trivial

/-- The write of an expired deadline. -/
def Eff.Overdue (e : Eff) : Prop :=
  ∃ id, e = .provider (.setWorkflowStatus id .cancelled none (some "deadline exceeded"))

/-- An effect of the engine. -/
def Eff.Engine (e : Eff) : Prop := e.Quiet ∨ e.Overdue

theorem Eff.Durable.quiet (h : e.Durable) : e.Quiet := by
  cases e with
  | provider c => cases c <;> trivial
  | _ => trivial

theorem quiet_of_routine {T : Type} {x : Verb T} (h : x.Calls Eff.Routine) : x.Calls Eff.Quiet :=
  fun s => (h s).mono fun _ => Eff.Routine.quiet

variable {S : Eff → Prop} {id : String}

theorem calls_result {T : Type} [Serde T] (hpoll : S (.sleep POLL_INTERVAL))
    (hread : S (.provider (.getWorkflowStatus id))) : (result T id).Calls S := by
  have hagain : (result.again T).Calls S := calls_bind (calls_perform hpoll) fun _ => calls_pure
  have hstatus : (getStatus id).Calls S := by
    refine calls_bind (calls_ask hread) fun row => ?_
    cases row with
    | some status => exact calls_pure
    | none => exact calls_fail
  refine calls_loop (fun _ => calls_bind (calls_attempt hstatus) fun r => ?_) _
  split
  · split
    · exact calls_bind calls_ofExcept fun _ => calls_pure
    · exact hagain
  · exact hagain
  · exact calls_fail

variable {opts : WorkflowOptions}

theorem calls_start_of {E : Engine} {uuid name : String} {I : Type} [Serde I] {input : I}
    (hnow : S .utcNow) (hinsert : ∀ e : Eff, e.NewRun → S e)
    (hdedup : ∀ queue dedup, S (.provider (.getDeduplicatedWorkflow queue dedup)))
    (hspawn : ∀ key json deadlineMs auth, S (.spawn (startId uuid opts) key json deadlineMs auth)) :
    (start E uuid I name input opts).Calls S := by
  have hround {id : String} {json : Value} {auth : AuthContext} :
      (insertOrExisting E id name json opts auth).Calls S := by
    refine calls_bind (calls_attempt (steady_insertRun hnow hinsert).calls) fun r => ?_
    split
    · exact calls_pure
    · split
      · split
        · refine calls_bind (calls_ask (hdedup _ _)) fun existing => ?_
          cases existing with
          | some existing => exact calls_pure
          | none => exact calls_pure
        · exact calls_pure
      · exact calls_fail
  refine calls_bind calls_toValue fun json => ?_
  dsimp only
  split
  · exact calls_fail
  · split
    · exact calls_fail
    · refine calls_bind (calls_loop (fun _ => hround) _) fun r => ?_
      split
      · exact calls_pure
      · split
        · exact calls_pure
        · exact calls_bind (calls_perform (hspawn _ _ _ _)) fun _ => calls_pure

theorem Eff.NewRun.routine (h : e.NewRun) : e.Routine := by
  cases h with
  | insert => exact newRun_initial

theorem calls_start {E : Engine} {uuid name : String} {I : Type} [Serde I] {input : I} :
    (start E uuid I name input opts).Calls Eff.Routine :=
  calls_start_of trivial (fun _ he => he.routine) (fun _ _ => trivial) fun _ _ _ _ => trivial

theorem calls_resumeWorkflowOn {queue : String} :
    (resumeWorkflowOn id queue).Calls Eff.Routine := by
  refine calls_bind (calls_ask trivial) fun resumed => ?_
  split
  · exact calls_bind (calls_ask trivial) fun _ => calls_pure
  · refine calls_bind (calls_ask trivial) fun row => ?_
    cases row with
    | some _ => exact calls_pure
    | none => exact calls_fail

theorem calls_resumeWorkflowsOn {ids : List String} {queue : String} :
    (resumeWorkflowsOn ids queue).Calls Eff.Routine :=
  calls_bind (calls_ask trivial) fun _ =>
    calls_bind (calls_forEach (fun _ => calls_ask trivial) _) fun _ =>
      calls_bind (calls_ask trivial) fun _ => calls_pure

theorem calls_dispatchClaimed {E : Engine} {wf : WorkflowStatus} :
    (dispatchClaimed E wf).Calls Eff.Routine := by
  unfold dispatchClaimed
  dsimp only
  split
  · exact calls_perform trivial
  · exact calls_bind (calls_attempt (calls_ask ⟨rfl, rfl, rfl⟩)) fun _ => calls_pure

variable {queue : WorkflowQueue}

theorem calls_dispatchPartition {E : Engine} {key : Option String} :
    (dispatchPartition E queue key).Calls Eff.Routine := by
  refine calls_bind (calls_perform trivial) fun running => ?_
  dsimp only
  split
  · exact calls_pure
  · refine calls_bind (calls_attempt (calls_ask trivial)) fun claimed => ?_
    cases claimed with
    | ok claimed =>
      exact calls_bind (calls_forEach (fun _ => calls_dispatchClaimed) _) fun _ => calls_pure
    | error e => exact calls_pure

/-- An effect of a dispatcher between two partitions. -/
inductive Eff.Polls : Eff → Prop where
  | shutdown : Polls .isCancelled
  | now : Polls .utcNow
  | transition {nowMs : Int} : Polls (.provider (.transitionDelayedWorkflows nowMs))
  | partitions {queue : String} : Polls (.provider (.queuePartitions queue))
  | sleep {interval : Duration} : Polls (.sleep interval)

theorem calls_partitionKeys : (partitionKeys queue).Calls Eff.Polls := by
  unfold partitionKeys
  split
  · refine calls_bind (calls_attempt (calls_ask .partitions)) fun keys => ?_
    cases keys with
    | ok keys => exact calls_pure
    | error e => exact calls_pure
  · exact calls_pure

/-- **A dispatcher moves the world as its partitions do**, one after the other and round after
round. -/
theorem Moves.queueDispatchLoop {W : Type*} {J : Proc.Judge Eff Answer W} {M : W → W → Prop}
    {E : Engine} (hrefl : ∀ w, M w w) (htrans : ∀ {a b c}, M a b → M b c → M a c)
    (hpolls : ∀ {α : Type} {x : Verb α}, x.Calls Eff.Polls → Moves J M x)
    (hpartition : ∀ key, Moves J M (dispatchPartition E queue key)) :
    Moves J M (queueDispatchLoop E queue) := by
  have hpartitions : ∀ keys, Moves J M (dispatchPartitions E queue keys) := by
    intro keys
    induction keys with
    | nil => exact hpolls calls_pure
    | cons key keys ih =>
      exact Moves.bind (hpartition key) (fun _ => Moves.bind ih (fun _ => hpolls calls_pure) htrans)
        htrans
  refine Moves.loop (fun interval => ?_) _ hrefl htrans
  refine Moves.bind (hpolls (calls_perform .shutdown)) (fun shutdown => ?_) htrans
  split
  · exact hpolls calls_pure
  · refine Moves.bind (hpolls (calls_perform .now)) (fun now => ?_) htrans
    refine Moves.bind (hpolls (calls_attempt (calls_ask .transition))) (fun _ => ?_) htrans
    refine Moves.bind (hpolls calls_partitionKeys) (fun keys => ?_) htrans
    refine Moves.bind (hpartitions keys.1) (fun failed => ?_) htrans
    exact hpolls (calls_bind (calls_perform .now) fun _ =>
      calls_bind (calls_perform .sleep) fun _ => calls_pure)

theorem Eff.Polls.routine (h : e.Polls) : e.Routine := by
  cases h with
  | _ => trivial

theorem calls_dispatchPartitions {E : Engine} {queue : WorkflowQueue} :
    ∀ keys, (dispatchPartitions E queue keys).Calls Eff.Routine
  | [] => calls_pure
  | _ :: keys => calls_bind calls_dispatchPartition fun _ =>
    calls_bind (calls_dispatchPartitions keys) fun _ => calls_pure

theorem calls_queueDispatchLoop {E : Engine} : (queueDispatchLoop E queue).Calls Eff.Routine := by
  refine calls_loop (fun interval => calls_bind (calls_perform trivial) fun shutdown => ?_) _
  split
  · exact calls_pure
  · exact calls_bind (calls_perform trivial) fun _ =>
      calls_bind (calls_attempt (calls_ask trivial)) fun _ =>
        calls_bind (fun s => (calls_partitionKeys s).mono fun _ => Eff.Polls.routine) fun _ =>
        calls_bind (calls_dispatchPartitions _) fun _ => calls_bind (calls_perform trivial) fun _ =>
          calls_bind (calls_perform trivial) fun _ => calls_pure

/-! ## Executions -/

/-- The effects of an execution of `id` are in `S`: those of its operations, the rows and starts of
children, its timer, and the write of how it ended. -/
structure Eff.AdmitsExecutions (id : String) (S : Eff → Prop) : Prop where
  plain : ∀ e : Eff, e.PlainOf id → S e
  newRun : ∀ e : Eff, e.NewRun → S e
  spawn : ∀ id key input deadlineMs auth, S (.spawn id key input deadlineMs auth)
  elapsed : ∀ deadline, S (.elapsed deadline)
  conclude : ∀ {status output error}, Writes status output error → status ≠ .enqueued →
    S (.provider (.setWorkflowStatus id status output error))
  overdue : S (.provider (.setWorkflowStatus id .cancelled none (some "deadline exceeded")))

theorem calls_conclude {P : Provider}
    (hS : ∀ {status output error}, Writes status output error → status ≠ .enqueued →
      S (.provider (.setWorkflowStatus id status output error)))
    (caught : Caught (Except Error Value)) : (conclude P id caught).Calls S := by
  unfold conclude
  split
  · exact calls_fail
  · exact calls_bind (calls_ask (hS .success (by decide))) fun _ => calls_pure
  · exact calls_bind (calls_ask (hS .cancelled (by decide))) fun _ => calls_fail
  · exact calls_bind (calls_ask (hS .error (by decide))) fun _ => calls_fail

theorem quiet_conclude {P : Provider} (caught : Caught (Except Error Value)) :
    (conclude P id caught).Calls Eff.Quiet :=
  calls_conclude (fun h _ => h) caught

theorem calls_task {α : Type} {x : Verb α} (h : x.Calls S) : x.task.Calls S :=
  (h {}).bind fun _ => trivial

variable {auth : AuthContext} {deadlineMs : Option Int} {handler : WorkflowFn}

section

variable [Serde DateTime] {X : TextCodec} {E : Engine} {ctx : DurableContext}

section

variable {P : Provider} {R : Type} (hS : ∀ e : Eff, e.PlainOf ctx.workflowId → S e)
  (hinsert : ∀ e : Eff, e.NewRun → S e)
  (hspawn : ∀ id key input deadlineMs auth, S (.spawn id key input deadlineMs auth))
  (hsql : ∀ seq started opts, (P.runTransactionStep ctx.workflowId seq started opts).Calls S)

include hS hinsert hspawn hsql

/-- **What a body awaits keeps to what executions do**, those of the backend's transactions
included. -/
theorem calls_act (a : Act) (s : CtxState) : (a.run P ctx s).Calls S := by
  cases a with
  | op o => exact calls_op_of hS hsql (fun _ _ _ _ _ _ => calls_startWorkflow hS hinsert hspawn) s
  | result O id => exact calls_result (hS _ trivial) (hS _ trivial) s
  | outside T => exact ⟨hS _ trivial, fun _ => trivial⟩

/-- **An execution keeps to what executions do.** -/
theorem calls_runBody_of (body : Program Act Act.Outcome R) :
    ∀ s, (runBody P ctx body s).Calls S := by
  induction body with
  | done r => exact fun s => trivial
  | op a k ih =>
    exact fun s => Proc.Calls.bind (fun r => ih r.1 r.2) (calls_act hS hinsert hspawn hsql a s)

end

theorem calls_runToCompletion_of (hS : Eff.AdmitsExecutions id S) {rt : Runtime} {input : Value} :
    (runToCompletion (Memory.provider X) rt handler id input deadlineMs auth).Calls S := by
  have hbody : (runBody (Memory.provider X) ⟨id, auth, rt⟩ (handler ⟨id, auth, rt⟩ input)
      {}).Calls S := calls_runBody_of hS.plain hS.newRun hS.spawn (fun _ _ _ => by trivial) _ {}
  unfold runToCompletion
  cases deadlineMs with
  | none => exact calls_bind (calls_ofProc hbody) fun _ => calls_conclude hS.conclude _
  | some dl =>
    refine calls_bind (calls_perform (hS.plain _ trivial)) fun now =>
      calls_bind (calls_ofProc (hbody.cut (hS.elapsed _))) fun r => ?_
    cases r with
    | some caught => exact calls_conclude hS.conclude _
    | none => exact calls_bind (calls_ask hS.overdue) fun _ => calls_fail

theorem calls_runBody {R : Type} (body : Program Act Act.Outcome R) :
    ∀ s, (runBody (Memory.provider X) ctx body s).Calls Eff.Quiet :=
  calls_runBody_of (fun _ he => he.plain.durable.quiet) (fun _ he => he.durable.quiet)
    (fun _ _ _ _ _ => trivial) (fun _ _ _ => by trivial) body

theorem calls_runToCompletion {rt : Runtime} {input : Value} :
    (runToCompletion (Memory.provider X) rt handler id input deadlineMs auth).Calls Eff.Engine :=
  calls_runToCompletion_of
    { plain := fun _ he => .inl he.plain.durable.quiet
      newRun := fun _ he => .inl he.durable.quiet
      spawn := fun _ _ _ _ _ => .inl trivial
      elapsed := fun _ => .inl trivial
      conclude := fun h _ => .inl h
      overdue := .inr ⟨_, rfl⟩ }

theorem calls_dispatchPendingWorkflows : ∀ pending,
    (dispatchPendingWorkflows E (Memory.provider X) pending).Calls Eff.Engine
  | [] => calls_pure
  | record :: pending => by
    have hrest := calls_dispatchPendingWorkflows pending
    refine calls_bind (calls_perform (.inl trivial)) fun shutdown => ?_
    split
    · exact calls_pure
    · refine calls_bind (calls_ask (.inl trivial)) fun attempts => ?_
      split
      · exact hrest
      · split
        · exact calls_bind (calls_ask (.inl .enqueued)) fun _ =>
            calls_bind hrest fun _ => calls_pure
        · split
          · exact calls_bind (calls_attempt calls_runToCompletion) fun _ =>
              calls_bind hrest fun _ => calls_pure
          · exact hrest

theorem routine_request {req : Request} (h : ∀ ids, req ≠ .recoverPendingWorkflows ids) :
    (req.run (Memory.provider X) E).Calls Eff.Routine := by
  cases req with
  | start uuid I name input opts => exact calls_task calls_start
  | cancelWorkflow id => exact calls_task (calls_ask trivial)
  | cancelWorkflows ids => exact calls_task (calls_ask trivial)
  | resumeWorkflowOn id queue => exact calls_task calls_resumeWorkflowOn
  | resumeWorkflowsOn ids queue => exact calls_task calls_resumeWorkflowsOn
  | deleteWorkflows ids children => exact calls_task (calls_ask trivial)
  | recoverPendingWorkflows executorIds => exact absurd rfl (h executorIds)
  | queueDispatchLoop queue => exact calls_task calls_queueDispatchLoop

/-- **Every request keeps to the calls of the engine.** -/
theorem calls_request (req : Request) : (req.run (Memory.provider X) E).Calls Eff.Engine := by
  by_cases h : ∃ ids, req = .recoverPendingWorkflows ids
  · obtain ⟨executorIds, rfl⟩ := h
    exact calls_task (calls_bind (calls_ask (.inl trivial)) fun pending =>
      calls_dispatchPendingWorkflows pending)
  · exact (routine_request fun ids hreq => h ⟨ids, hreq⟩).mono fun _ he => .inl he.quiet

theorem calls_spawned (e : Proc.Event Eff Answer (World Memory.Inner)) :
    ∀ p ∈ spawned (Memory.provider X) E e, p.Calls Eff.Engine := by
  intro p hp
  unfold spawned at hp
  split at hp
  · split at hp
    · rw [List.mem_singleton.mp hp]
      exact calls_task calls_runToCompletion
    · exact nomatch hp
  · exact nomatch hp

end

end Durare
