import Durare.Context.Ops

/-!
# Context/Footprints — which calls the durable operations can make

`Eff.Durable` is what the operations do, read off their code one by one (`calls_op`): they never
write a status, and only `recv` consumes messages.  An operation takes a fixed number of sequence
numbers and records at these only (`takes_op`, `counts_op`).
-/

namespace Durare

open Verb

/-- A call the durable operations make: the row of a child is inserted live, and messages are
consumed by `recv`. -/
def ProviderCall.Durable : ProviderCall → Prop
  | .insertWorkflowStatus status => status.status.isTerminal = false
  | .consumeNotification _ _ _ name => name = "DBOS.recv"
  | .getWorkflowStatus _ | .getStepResult _ _ | .recordStepResult _ _ _ _ _ _
  | .insertNotification _ _ _ _ | .upsertEvent _ _ _
  | .getEventValue _ _ | .recordChildWorkflow _ _ _ _ | .checkChildWorkflow _ _ | .getStepName _ _
  | .recordPatch _ _ _ | .writeStream _ _ _ _ => True
  | _ => False

/-- An effect of the durable operations. -/
def Eff.Durable : Eff → Prop
  | .provider c => c.Durable
  | .elapsed _ | .isCancelled | .localRunning _ _ => False
  | _ => True

/-- An effect of the durable operations that starts no child. -/
def Eff.Plain : Eff → Prop
  | .provider (.insertWorkflowStatus _) | .spawn _ _ _ _ _ => False
  | e => e.Durable

variable {e : Eff}

theorem Eff.Plain.durable (h : e.Plain) : e.Durable := by
  cases e with
  | provider c =>
    cases c with
    | insertWorkflowStatus status => exact h.elim
    | _ => exact h
  | spawn _ _ _ _ _ => trivial
  | _ => exact h

/-- A call that the operations of the workflow `id` make: they write in its name only. -/
def ProviderCall.DurableOf (id : String) : ProviderCall → Prop
  | .consumeNotification id' _ _ name => id' = id ∧ name = "DBOS.recv"
  | .getStepResult id' _ | .recordStepResult id' _ _ _ _ _ | .upsertEvent id' _ _
  | .recordChildWorkflow id' _ _ _ | .checkChildWorkflow id' _ | .getStepName id' _
  | .recordPatch id' _ _ | .writeStream id' _ _ _ => id' = id
  | c => c.Durable

/-- An effect of the operations of the workflow `id` that starts no child. -/
def Eff.PlainOf (id : String) : Eff → Prop
  | .provider (.insertWorkflowStatus _) | .spawn _ _ _ _ _ => False
  | .provider c => c.DurableOf id
  | e => e.Durable

variable {id : String}

theorem Eff.PlainOf.plain (h : e.PlainOf id) : e.Plain := by
  cases e with
  | provider c =>
    cases c with
    | consumeNotification => exact h.2
    | _ =>
      first
      | exact h
      | exact trivial
  | _ => exact h

/-- An effect of an operation of the workflow `id` that records at the sequence numbers from `n` to
`m` only, starts no child, takes no message and writes to no stream. -/
def Eff.Within (id : String) (n m : Int) : Eff → Prop
  | .provider (.recordStepResult id' seq _ _ _ _) | .provider (.recordChildWorkflow id' seq _ _)
  | .provider (.recordPatch id' seq _) => id' = id ∧ n ≤ seq ∧ seq < m
  | .provider (.consumeNotification _ _ _ _) | .provider (.writeStream _ _ _ _) => False
  | e => e.PlainOf id

theorem Eff.Within.plainOf {n m : Int} (h : e.Within id n m) : e.PlainOf id := by
  cases e with
  | provider c =>
    cases c with
    | recordStepResult | recordChildWorkflow | recordPatch => exact h.1
    | consumeNotification | writeStream => exact h.elim
    | _ => exact h
  | _ => exact h

variable {ctx : DurableContext} {T : Type} [Serde T] {S : Eff → Prop}

theorem calls_toValue {v : T} : (toValue v).Calls S := calls_ofExcept

/-! ## Methods at a sequence number

What the operations do once they have their sequence numbers: they leave the context alone, and
record at the numbers they were given. -/

variable {P : Provider} {expected name : String} {started : Option Int} {α : Type}

section

variable {n m seq : Int}

theorem steady_toValue {v : T} : (toValue v).Steady S := steady_ofExcept

theorem steady_fromValue {v : Value} : (fromValue T v).Steady S := steady_ofExcept

theorem steady_replayOrGuard :
    (replayOrGuard ctx T seq expected).Steady (Eff.Within ctx.workflowId n m) := by
  refine steady_bind (steady_ask rfl) fun found => ?_
  cases found with
  | some rec =>
    dsimp only
    split
    · exact steady_fail
    · exact steady_bind steady_ofExcept fun _ => steady_pure
  | none =>
    refine steady_bind (steady_ask trivial) fun row => ?_
    cases row with
    | some status =>
      dsimp only
      split
      · exact steady_fail
      · exact steady_pure
    | none => exact steady_pure

/-- The work of an operation unless a row says that it is done. -/
theorem steady_unlessDone {f : Option T → Verb α}
    (hS : ∀ e : Eff, e.Within ctx.workflowId n m → S e)
    (hdone : ∀ stored, (f (some stored)).Steady S) (hwork : (f none).Steady S) :
    (replayOrGuard ctx T seq expected >>= f).Steady S := by
  refine steady_bind (steady_replayOrGuard.mono hS) fun found => ?_
  cases found with
  | some stored => exact hdone stored
  | none => exact hwork

variable (hseq : n ≤ seq ∧ seq < m)

include hseq

theorem steady_record {value : Value} {error : Option String} :
    (ask (.recordStepResult ctx.workflowId seq name value error started)).Steady
      (Eff.Within ctx.workflowId n m) := steady_ask ⟨rfl, hseq⟩

theorem steady_checkpoint {v : T} :
    (checkpoint ctx T seq name v started).Steady (Eff.Within ctx.workflowId n m) :=
  steady_bind steady_toValue fun _ => steady_bind (steady_record hseq) fun _ => steady_ofExcept

theorem steady_recordFailure {e : Error} :
    (recordFailure P ctx T seq name e started).Steady (Eff.Within ctx.workflowId n m) := by
  refine steady_bind (steady_record hseq) fun outcome => ?_
  cases outcome with
  | failure => exact steady_fail
  | output v => exact steady_fromValue

omit hseq [Serde T] in
theorem steady_runStepCatching {name : String} :
    (runStepCatching T seq name).Steady (Eff.Within ctx.workflowId n m) := by
  refine steady_bind (steady_perform trivial) fun r => ?_
  cases r with
  | returned r => exact steady_pure
  | panicked payload => exact steady_pure

theorem steady_checkpointed {attempt : Verb (Except Error T)}
    (h : attempt.Steady (Eff.Within ctx.workflowId n m)) :
    (checkpointed P ctx T seq name attempt).Steady (Eff.Within ctx.workflowId n m) := by
  refine steady_unlessDone (fun _ he => he) (fun _ => steady_pure) ?_
  refine steady_bind (steady_perform trivial) fun _ => steady_bind h fun r => ?_
  cases r with
  | ok v => exact steady_checkpoint hseq
  | error e => exact steady_recordFailure hseq

omit hseq [Serde T] in
theorem steady_runWithRetries {opts : StepOptions} :
    (runWithRetries T seq opts).Steady (Eff.Within ctx.workflowId n m) := by
  refine steady_loop (fun attempt => steady_bind steady_runStepCatching fun r => ?_) _
  cases r with
  | ok v => exact steady_pure
  | error e =>
    dsimp only
    split
    · exact steady_pure
    · exact steady_bind (steady_perform trivial) fun _ => steady_pure

end

/-! ## Timers -/

variable {timeout : Duration}

section

variable [Serde DateTime] {n m seq : Int}

section

variable {dur : Duration} {deadline : Option DateTime}
  (hget : S (.provider (.getStepResult ctx.workflowId seq))) (hnow : S .utcNow)
  (hrecord : ∀ j, S (.provider (.recordStepResult ctx.workflowId seq "DBOS.sleep" j none none)))

include hget hnow hrecord

theorem steady_durableWakeAt : (durableWakeAt ctx seq dur).Steady S := by
  refine steady_bind (steady_ask hget) fun found => ?_
  cases found with
  | some rec =>
    dsimp only
    split
    · exact steady_fail
    · exact steady_ofExcept
  | none =>
    exact steady_bind (steady_perform hnow) fun _ => steady_bind steady_toValue fun j =>
      steady_bind (steady_ask (hrecord j)) fun _ => steady_ofExcept

theorem steady_deadlineOf : (deadlineOf ctx seq timeout deadline).Steady S := by
  cases deadline with
  | some d => exact steady_pure
  | none => exact steady_durableWakeAt hget hnow hrecord

end

omit [Serde T] in
theorem steady_waitOrTimeOut {P : Provider} {deadlineSeq : Int} {name : String}
    {timeout : Duration} {wait : ChangeWait} {deadline : Option DateTime}
    (hseq : n ≤ seq ∧ seq < m) (hdeadline : n ≤ deadlineSeq ∧ deadlineSeq < m) :
    (waitOrTimeOut P ctx T seq deadlineSeq name timeout wait deadline).Steady
      (Eff.Within ctx.workflowId n m) := by
  refine steady_bind (steady_deadlineOf rfl trivial fun _ => ⟨rfl, hdeadline⟩) fun deadline =>
    steady_bind (steady_perform trivial) fun now => ?_
  split
  · exact steady_bind (steady_record hseq) fun _ => steady_pure
  · exact steady_bind (steady_perform trivial) fun _ => steady_pure

end

/-- A status that a run begins with. -/
def Status.initial : Status → Bool
  | pending | enqueued | delayed => true
  | _ => false

theorem not_isTerminal_of_initial {s : Status} (h : s.initial = true) : s.isTerminal = false := by
  cases s <;> first | rfl | cases h

variable {auth : AuthContext} {created : DateTime} {input : Value} {opts : WorkflowOptions}
  {parent : Option String} {rt : Runtime}

theorem newRun_initial {nowMs : Int} :
    (newRun rt nowMs created id name input opts parent auth).status.initial = true := by
  obtain ⟨_, _, _, _, queue, _, _, _, delay, _, _, _, _, _⟩ := opts
  cases queue with
  | none => rfl
  | some q => cases delay with
    | none => rfl
    | some d => rfl

theorem newRun_live {nowMs : Int} :
    (newRun rt nowMs created id name input opts parent auth).status.isTerminal = false :=
  not_isTerminal_of_initial newRun_initial

/-- The insertion of the row of a new run. -/
inductive Eff.NewRun : Eff → Prop where
  | insert {rt : Runtime} {nowMs : Int} {created : DateTime} {id name : String} {input : Value}
      {opts : WorkflowOptions} {parent : Option String} {auth : AuthContext} :
      Eff.NewRun (.provider (.insertWorkflowStatus
        (newRun rt nowMs created id name input opts parent auth)))

theorem Eff.NewRun.durable (h : e.NewRun) : e.Durable := by
  cases h with
  | insert => exact newRun_live

theorem steady_insertRun (hnow : S .utcNow) (hinsert : ∀ e : Eff, e.NewRun → S e) :
    (insertRun rt id name input opts parent auth).Steady S := by
  have hall : (insertRun.insert rt id name input opts parent auth).Steady S :=
    steady_bind (steady_perform hnow) fun _ => steady_bind (steady_perform hnow) fun _ =>
      steady_bind (steady_ask (hinsert _ .insert)) fun _ => steady_pure
  unfold insertRun
  split
  · split
    · exact steady_fail
    · exact hall
  · split
    · exact steady_fail
    · exact hall

variable {s : CtxState}

theorem takes_startWorkflow (hnow : S .utcNow)
    (hcheck : S (.provider (.checkChildWorkflow ctx.workflowId s.seq)))
    (hrecord : ∀ name child, S (.provider (.recordChildWorkflow ctx.workflowId s.seq name child)))
    (hinsert : ∀ e : Eff, e.NewRun → S e)
    (hspawn : ∀ id key input deadlineMs auth, S (.spawn id key input deadlineMs auth)) {input : T} :
    (startWorkflow ctx T name input opts).Takes S 1 s := by
  refine .nextSeq (Steady.takes (steady_bind (steady_ask hcheck) fun found => ?_) _)
  cases found with
  | some child =>
    dsimp only
    split
    · exact steady_fail
    · exact steady_pure
  | none =>
    refine steady_bind steady_toValue fun _ => steady_bind ?_ fun _ =>
      steady_bind (steady_ask (hrecord _ _)) fun _ => steady_pure
    unfold spawnChild
    dsimp only
    split
    · exact steady_fail
    · refine steady_bind (steady_insertRun hnow hinsert) fun _ => ?_
      split
      · exact steady_perform (hspawn _ _ _ _ _)
      · exact steady_pure

theorem calls_startWorkflow (hS : ∀ e : Eff, e.PlainOf ctx.workflowId → S e)
    (hinsert : ∀ e : Eff, e.NewRun → S e)
    (hspawn : ∀ id key input deadlineMs auth, S (.spawn id key input deadlineMs auth)) {input : T} :
    (startWorkflow ctx T name input opts).Calls S := fun _ =>
  (takes_startWorkflow (hS _ trivial) (hS _ rfl) (fun _ _ => hS _ rfl) hinsert hspawn).calls

/-! ## Operations -/

/-- The stream an operation writes to. -/
def Op.stream : Op → Option String
  | @Op.writeStream _ _ key _ | .closeStream key => some key
  | _ => none

/-- The mailbox an operation takes messages from. -/
def Op.mailbox : Op → Option String
  | @Op.recv _ _ topic _ => some topic
  | _ => none

/-- How far an operation moves the counter: a patch that is not in force takes no sequence
number. -/
def Op.advance : (o : Op) → Except Error o.Result → Nat
  | .patch _, .ok true => 1
  | .patch _, _ => 0
  | o, _ => o.width

theorem takes_one {f : Int → Verb α} (h : (f s.seq).Steady S) :
    (nextSeq >>= f).Takes S 1 s := .nextSeq (h.takes _)

theorem takes_two {f : Int → Int → Verb α} (h : (f s.seq (s.seq + 1)).Steady S) :
    (nextSeq >>= fun seq => nextSeq >>= f seq).Takes S 2 s := .nextSeq (.nextSeq (h.takes _))

theorem takes_durableValue {produce : Int → Verb T}
    (hget : S (.provider (.getStepResult ctx.workflowId s.seq)))
    (hrecord : ∀ j, S (.provider (.recordStepResult ctx.workflowId s.seq name j none none)))
    (h : (produce s.seq).Steady S) : (durableValue ctx T name produce).Takes S 1 s := by
  refine takes_one (steady_bind (steady_ask hget) fun found => ?_)
  cases found with
  | some rec =>
    dsimp only
    split
    · exact steady_fail
    · exact steady_ofExcept
  | none =>
    exact steady_bind h fun _ => steady_bind steady_toValue fun j =>
      steady_bind (steady_ask (hrecord j)) fun _ => steady_ofExcept

theorem steady_runTransactionStep {seq started : Int} {opts : TransactionOptions}
    (h : (P.runTransactionStep ctx.workflowId seq started opts).Calls S) :
    (runTransactionStep P ctx seq started opts).Steady S where
  calls _ := h.bind fun _ => trivial
  still _ := Proc.wp_bind (Proc.wp_mono (fun _ _ _ => rfl) (h.wp (fun _ _ _ _ _ _ => trivial) ()))

/-- A transactional step makes the calls of the backend's own part. -/
theorem takes_transactionWith {opts : TransactionOptions} (hs : s.inTransaction = false)
    (hnow : S .utcNow)
    (hsql : ∀ started, (P.runTransactionStep ctx.workflowId s.seq started opts).Calls S) :
    (transactionWith P ctx T opts).Takes S 1 s := by
  obtain ⟨seq, flag⟩ := s
  cases hs
  have hbody : (nextSeq >>= fun seq => perform .utcNow >>= fun started =>
      runTransactionStep P ctx seq started.timestampMillis opts >>= fromValue T).Takes S 1
        ⟨seq, true⟩ :=
    takes_one (steady_bind (steady_perform hnow) fun started =>
      steady_bind (steady_runTransactionStep (hsql _)) fun _ => steady_fromValue)
  have heq : transactionWith P ctx T opts ⟨seq, false⟩ =
      resetOnDrop (nextSeq >>= fun seq => perform .utcNow >>= fun started =>
        runTransactionStep P ctx seq started.timestampMillis opts >>= fromValue T)
          ⟨seq, true⟩ := rfl
  refine ⟨?_, wp_of_eq heq (wp_resetOnDrop (wp_mono ?_ hbody.counts))⟩
  · rw [heq]
    exact hbody.calls.bind fun _ => trivial
  · rintro _ _ _ rfl
    rfl

theorem calls_transactionWith {opts : TransactionOptions} (hnow : S .utcNow)
    (hsql : ∀ started, (P.runTransactionStep ctx.workflowId s.seq started opts).Calls S) :
    (transactionWith P ctx T opts s).Calls S := by
  cases hs : s.inTransaction with
  | true =>
    obtain ⟨seq, flag⟩ := s
    cases hs
    trivial
  | false => exact (takes_transactionWith hs hnow hsql).calls

omit [Serde T] in
/-- A patch looks at the row at its sequence number, and marks it if there is none. -/
theorem calls_patch (hget : S (.provider (.getStepName ctx.workflowId s.seq)))
    (hmark : S (.provider (.recordPatch ctx.workflowId s.seq (PATCH_PREFIX ++ name)))) :
    (patch ctx name s).Calls S := by
  refine calls_currentStepId_bind (calls_bind (calls_ask hget) fun found => ?_)
  cases found with
  | none => exact calls_bind (calls_ask hmark) fun _ => calls_bind calls_nextSeq fun _ => calls_pure
  | some recorded =>
    dsimp only
    split
    · exact calls_bind calls_nextSeq fun _ => calls_pure
    · exact calls_pure

omit [Serde T] in
theorem counts_patch {name : String} {s : CtxState} : wp unconstrained (patch ctx name)
    (fun r s' _ => s' = { s with seq := s.seq + (Op.patch name).advance r }) s () := by
  have hstays : s = { s with seq := s.seq + (0 : Nat) } :=
    congrArg (CtxState.mk · _) (Int.add_zero s.seq).symm
  apply wp_currentStepId
  refine wp_ask fun _ _ r _ _ => ⟨trivial, ?_⟩
  obtain e | _ | recorded := r
  · exact hstays
  · rw [after_ok]
    refine wp_ask fun _ _ r _ _ => ⟨trivial, ?_⟩
    obtain e | _ := r
    · exact hstays
    · rfl
  · rw [after_ok]
    dsimp only
    split
    · rfl
    · exact hstays

/-- The operations that are one method at the sequence numbers they take, whatever the context. -/
def Op.Regular : Op → Prop
  | @Op.transaction _ _ _ | .patch _ => False
  | _ => True

section

variable [Serde DateTime] {o : Op}
  (hS : ∀ e : Eff, e.Within ctx.workflowId s.seq (s.seq + o.width) → S e)
  (hstream : ∀ key value, o.stream = some key →
    S (.provider (.writeStream ctx.workflowId key value s.seq)))
  (hrecv : ∀ topic, o.mailbox = some topic →
    S (.provider (.consumeNotification ctx.workflowId topic s.seq "DBOS.recv")))
  (hstart : ∀ (I : Type) [Serde I] name input opts, o = .startWorkflow I name input opts →
    (startWorkflow ctx I name input opts s).Calls S)

include hS hstream hrecv hstart

/-- **An operation takes its sequence numbers, and records there.** -/
theorem takes_op (ho : o.Regular) : (o.run P ctx).Takes S o.width s := by
  have hone (h : 0 < o.width) : s.seq ≤ s.seq ∧ s.seq < s.seq + (o.width : Int) := by omega
  have htwo (h : 1 < o.width) : s.seq ≤ s.seq + 1 ∧ s.seq + 1 < s.seq + (o.width : Int) := by omega
  cases o with
  | step T name =>
    exact takes_one ((steady_checkpointed (hone Nat.one_pos) steady_runStepCatching).mono hS)
  | stepWith T opts =>
    exact takes_one ((steady_checkpointed (hone Nat.one_pos) steady_runWithRetries).mono hS)
  | select T branches =>
    change (select ctx T branches).Takes S (Op.select T branches).width s
    unfold select
    by_cases hb : branches = 0
    · rw [if_pos hb, Op.width, if_pos hb]
      exact steady_fail.takes s
    · have hwidth : (Op.select T branches).width = 1 := if_neg hb
      rw [if_neg hb, hwidth]
      refine takes_one (steady_unlessDone hS (fun _ => steady_pure) (Steady.mono ?_ hS))
      exact steady_bind (steady_perform trivial) fun _ => steady_bind (steady_perform trivial)
        fun _ => steady_checkpoint (hone (hwidth ▸ Nat.one_pos))
  | sleep dur =>
    have hwake : (durableWakeAt ctx s.seq dur).Steady
        (Eff.Within ctx.workflowId s.seq (s.seq + (Op.sleep dur).width)) :=
      steady_durableWakeAt rfl trivial fun _ => ⟨rfl, hone Nat.one_pos⟩
    refine takes_one (Steady.mono (steady_bind hwake fun _ =>
      steady_bind (steady_perform trivial) fun _ => ?_) hS)
    split
    · exact steady_pure
    · exact steady_perform trivial
  | now =>
    exact takes_durableValue (hS _ rfl) (fun _ => hS _ ⟨rfl, hone Nat.one_pos⟩)
      (steady_perform (hS _ trivial))
  | uuid | random =>
    exact takes_durableValue (hS _ rfl) (fun _ => hS _ ⟨rfl, hone Nat.one_pos⟩)
      (steady_bind (steady_perform (hS _ trivial)) fun _ => steady_pure)
  | send T dest message topic =>
    refine takes_one (steady_unlessDone hS (fun _ => steady_pure) (Steady.mono ?_ hS))
    exact steady_bind steady_toValue fun _ => steady_bind (steady_ask trivial) fun _ =>
      steady_bind (steady_record (hone Nat.one_pos)) fun _ => steady_pure
  | recv T topic timeout =>
    refine takes_two (steady_unlessDone hS (fun _ => steady_pure) ?_)
    refine steady_loop (fun deadline => steady_bind (steady_ask (hrecv topic rfl)) fun msg => ?_) _
    cases msg with
    | some msg => exact steady_bind steady_fromValue fun _ => steady_pure
    | none => exact (steady_waitOrTimeOut (hone Nat.two_pos) (htwo Nat.one_lt_two)).mono hS
  | setEvent T key value =>
    refine takes_one (steady_unlessDone hS (fun _ => steady_pure) (Steady.mono ?_ hS))
    exact steady_bind steady_toValue fun _ => steady_bind (steady_ask rfl) fun _ =>
      steady_bind (steady_record (hone Nat.one_pos)) fun _ => steady_pure
  | getEvent T target key timeout =>
    refine takes_two (steady_unlessDone hS (fun _ => steady_pure) (Steady.mono ?_ hS))
    refine steady_loop (fun deadline => steady_bind (steady_ask trivial) fun value => ?_) _
    cases value with
    | some value =>
      exact steady_bind (steady_record (hone Nat.two_pos)) fun _ =>
        steady_bind steady_ofExcept fun _ => steady_pure
    | none => exact steady_waitOrTimeOut (hone Nat.two_pos) (htwo Nat.one_lt_two)
  | writeStream T key value =>
    refine takes_one (steady_unlessDone hS (fun _ => steady_pure) ?_)
    exact steady_bind steady_toValue fun _ => steady_bind (steady_ask (hstream key _ rfl)) fun _ =>
      steady_bind ((steady_record (hone Nat.one_pos)).mono hS) fun _ => steady_pure
  | closeStream key =>
    refine takes_one (steady_unlessDone hS (fun _ => steady_pure) ?_)
    exact steady_bind (steady_ask (hstream key _ rfl)) fun _ =>
      steady_bind ((steady_record (hone Nat.one_pos)).mono hS) fun _ => steady_pure
  | startWorkflow I name input opts =>
    refine ⟨hstart I name input opts rfl, Takes.counts (S := fun _ => True) ?_⟩
    exact takes_startWorkflow trivial trivial (fun _ _ => trivial) (fun _ _ => trivial)
      fun _ _ _ _ _ => trivial
  | transaction T opts => exact ho.elim
  | patch name => exact ho.elim

/-- A durable operation records at its sequence numbers, writes to its stream, takes messages from
its mailbox, and makes the calls of the backend's transactions and those that start a child. -/
theorem calls_op_within
    (hsql : ∀ started opts, (P.runTransactionStep ctx.workflowId s.seq started opts).Calls S) :
    (o.run P ctx s).Calls S := by
  by_cases ho : o.Regular
  · exact (takes_op hS hstream hrecv hstart ho).calls
  · cases o with
    | transaction T opts => exact calls_transactionWith (hS _ trivial) (hsql · opts)
    | patch name => exact calls_patch (hS _ rfl) (hS _ ⟨rfl, le_rfl, Int.lt_succ s.seq⟩)
    | _ => exact absurd trivial ho

end

/-- **An operation moves the counter by the sequence numbers it takes.** -/
theorem counts_op [Serde DateTime] {P : Provider} {o : Op} {s : CtxState}
    (hs : s.inTransaction = false) (hsql : ∀ started opts,
      (P.runTransactionStep ctx.workflowId s.seq started opts).Calls fun _ => True) :
    wp unconstrained (o.run P ctx)
      (fun r s' _ => s' = { s with seq := s.seq + o.advance r }) s () := by
  have hregular (ho : o.Regular) : (o.run P ctx).Takes (fun _ => True) o.width s :=
    takes_op (fun _ _ => trivial) (fun _ _ _ => trivial) (fun _ _ => trivial) (fun _ _ _ _ _ _ =>
      calls_startWorkflow (fun _ _ => trivial) (fun _ _ => trivial) (fun _ _ _ _ _ => trivial) s) ho
  cases o with
  | transaction T opts =>
    exact (takes_transactionWith (S := fun _ => True) hs trivial (hsql · opts)).counts
  | patch name => exact counts_patch
  | _ => exact (hregular trivial).counts

/-- A durable operation makes plain calls, those of the backend's transactions, and those that start
a child. -/
theorem calls_op_of [Serde DateTime] {o : Op} (hS : ∀ e : Eff, e.PlainOf ctx.workflowId → S e)
    (hsql : ∀ seq started opts, (P.runTransactionStep ctx.workflowId seq started opts).Calls S)
    (hstart : ∀ (I : Type) [Serde I] name input opts, o = .startWorkflow I name input opts →
      (startWorkflow ctx I name input opts).Calls S) :
    (o.run P ctx).Calls S := fun s =>
  calls_op_within (fun _ he => hS _ he.plainOf) (fun _ _ _ => hS _ rfl) (fun _ _ => hS _ ⟨rfl, rfl⟩)
    (fun I _ name input opts ho => hstart I name input opts ho s) fun _ _ => hsql _ _ _

/-- **A durable operation makes durable calls only.** -/
theorem calls_op [Serde DateTime]
    (hsql : ∀ seq started opts,
      (P.runTransactionStep ctx.workflowId seq started opts).Calls Eff.Durable)
    (o : Op) : (o.run P ctx).Calls Eff.Durable :=
  calls_op_of (fun _ he => he.plain.durable) hsql fun _ _ _ _ _ _ =>
    calls_startWorkflow (fun _ he => he.plain.durable) (fun _ => Eff.NewRun.durable)
      fun _ _ _ _ _ => trivial

end Durare
