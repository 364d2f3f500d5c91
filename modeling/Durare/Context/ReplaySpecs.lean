import Durare.Context.Executions

/-!
# Context/ReplaySpecs — what one operation does to the log of its workflow

The operations that checkpoint themselves, over the in-memory backend, when nobody else writes rows
of the workflow and it is not cancelled.  For each of them: **it runs user code only while its slot
has no row, it adds rows to its own slots only, and when it returns, its slot has a row and the
result is the one the row stands for** — with failures compared by message.

The specs follow the methods: `wp_replayOrGuard`, `spec_checkpoint`, `spec_recordFailure` and
`wp_durableWakeAt` are used by name in those of the operations.
-/

namespace Durare.Replay

open List Option

open Memory Verb

/-- The recorded rows of the context's workflow. -/
def rows (ctx : DurableContext) (w : World Inner) : Int → Option StepRow :=
  log w.store ctx.workflowId

/-- The workflow is not cancelled, and no message or event is a JSON null. -/
structure Calm (ctx : DurableContext) (w : World Inner) : Prop where
  notCancelled : ∀ row, w.store.workflows.lookup ctx.workflowId = some row → row.status ≠ .cancelled
  messages : ∀ n ∈ w.store.notifications, n.message ≠ .null
  events : ∀ k v, w.store.events.lookup k = some v → v ≠ .null

/-- What the rest of the system may do: anything that leaves the rows of this workflow alone and
keeps the world calm. -/
structure Env (ctx : DurableContext) (w w' : World Inner) : Prop where
  rows_eq : rows ctx w' = rows ctx w
  calm : Calm ctx w → Calm ctx w'

theorem Env.refl (ctx : DurableContext) (w : World Inner) : Env ctx w w := ⟨rfl, id⟩

theorem Env.trans {ctx : DurableContext} {a b c : World Inner} (h : Env ctx a b)
    (h' : Env ctx b c) : Env ctx a c := ⟨h'.rows_eq.trans h.rows_eq, h'.calm ∘ h.calm⟩

variable {T : Type} {name : String} {opts : StepOptions} {started : Option Int} {timeout : Duration}
  {wait : ChangeWait}

section

variable [Serde DateTime]

/-- How the operations use the log: a row is recorded under the operation's name, the deadline of a
wait under `DBOS.sleep`, and an empty select fails without a row. -/
def recorder (o : Op) : Recorder StepRow (Except String o.Result) where
  width := o.width
  silent := .error "select requires at least one branch"
  outcome row := (o.recorded row).mapError Error.message
  Head row := row.name = o.name
  Tail row := row.name = "DBOS.sleep" ∧
    ∃ t : DateTime, outcomeValue DateTime (stepRowOutcome row) = .ok t

/-- An operation with its arguments as the property asks for them: values that round-trip, and no
event set to null. -/
def Replayable : Op → Prop
  | Op.step T _ | Op.stepWith T _ | Op.select T _ => LawfulSerde T
  | Op.setEvent _ _ value => ∃ j, Serde.toValue value = .ok j ∧ j ≠ .null
  | Op.sleep _ | Op.now | Op.uuid | Op.random | Op.recv _ _ _ | Op.getEvent _ _ _ _ => True
  | Op.send _ _ _ _ | Op.writeStream _ _ _ | Op.closeStream _ | Op.startWorkflow _ _ _ _
  | Op.transaction _ _ | Op.patch _ => False

/-- The judgement of the operation `o` at slot `n`. -/
def judge (X : TextCodec) (ctx : DurableContext) (o : Op) (n : Int) :
    Proc.Judge Eff Answer (World Inner) where
  handle := (provider X).handle
  rely := Env ctx
  guar e w _ w' := (e.RunsClosure → rows ctx w n = none) ∧
    Program.Extends recorder (rows ctx w) (rows ctx w') o n ∧ (Calm ctx w → Calm ctx w')

variable {X : TextCodec} {ctx : DurableContext} {o : Op} {n m : Int} {s : CtxState}
  {w : World Inner} {β : Type} {R : Except Error β → CtxState → World Inner → Prop}

/-! ## Rules for the calls

Each rule is about a call followed by the rest `f` of the method: the environment moves, the call is
answered, and the rest goes on from there. -/

theorem guar_same {e : Eff} {r : Answer e} (h : e.RunsClosure → rows ctx w n = none) :
    (judge X ctx o n).guar e w r w := ⟨h, .refl, id⟩

/-- An effect of user code or of the clock leaves the world as it is. -/
theorem wp_quiet {e : Eff} {f : Answer e → Verb β}
    (hclosure : e.RunsClosure → rows ctx w n = none)
    (hquiet : ∀ {w₁ r w₂}, (provider X).handle e w₁ r w₂ → w₂ = w₁)
    (hf : ∀ w₁ r, Env ctx w w₁ → wp (judge X ctx o n) (f r) R s w₁) :
    wp (judge X ctx o n) (perform e >>= f) R s w := by
  refine wp_bind fun w₁ henv r w₂ hr => ?_
  obtain rfl := hquiet hr
  refine ⟨guar_same fun h => ?_, hf w₂ r henv⟩
  rw [henv.rows_eq]
  exact hclosure h

variable {f : DateTime → Verb β}

theorem wp_now (hf : ∀ w₁ now, Env ctx w w₁ → wp (judge X ctx o n) (f now) R s w₁) :
    wp (judge X ctx o n) (perform .utcNow >>= f) R s w :=
  wp_quiet (fun h => h.elim) (·.2) hf

theorem wp_lookup {f : Option RecordedStep → Verb β}
    (hf : ∀ w₁, Env ctx w w₁ → wp (judge X ctx o n)
      (f ((rows ctx w₁ m).map fun row => ⟨row.name, stepRowOutcome row⟩)) R s w₁) :
    wp (judge X ctx o n) (ask (.getStepResult ctx.workflowId m) >>= f) R s w := by
  refine wp_bind fun w₁ henv r w₂ hr => ?_
  obtain ⟨rfl, rfl⟩ := handle_getStepResult hr
  exact ⟨guar_same fun h => h.elim, hf w₂ henv⟩

theorem wp_status {f : Option WorkflowStatus → Verb β}
    (hf : ∀ w₁, Env ctx w w₁ → wp (judge X ctx o n)
      (f (w₁.store.workflows.lookup ctx.workflowId)) R s w₁) :
    wp (judge X ctx o n) (ask (.getWorkflowStatus ctx.workflowId) >>= f) R s w := by
  refine wp_bind fun w₁ henv r w₂ hr => ?_
  obtain ⟨rfl, rfl⟩ := handle_getWorkflowStatus hr
  exact ⟨guar_same fun h => h.elim, hf w₂ henv⟩

/-- A row the operation may leave in slot `m`. -/
def Allowed (o : Op) (n m : Int) (row : StepRow) : Prop :=
  (m = n ∧ 0 < o.width ∧ row.name = o.name) ∨ (n < m ∧ m < n + o.width ∧ (recorder o).Tail row)

omit [Serde DateTime] in
theorem rows_insertNew {row : StepRow} {w' : World Inner}
    (hsteps : w'.store.steps = w.store.steps.insertNew (ctx.workflowId, m) row)
    (hnone : rows ctx w m = none) (i : Int) :
    rows ctx w' i = if i = m then some row else rows ctx w i := by
  simp only [rows, log, hsteps, AList.lookup_insertNew, Prod.mk.injEq, true_and] at hnone ⊢
  simp [hnone]

/-- Recording in an empty slot: the new row is the only change. -/
theorem wp_record {value : Value} {error : Option String} {f : StepOutcome → Verb β}
    (hcalm : Calm ctx w) (hnone : rows ctx w m = none)
    (hallow : ∀ now, Allowed o n m (resultRow now name value error started))
    (hf : ∀ w' now, Calm ctx w' → rows ctx w' m = some (resultRow now name value error started) →
      (∀ i, i ≠ m → rows ctx w' i = rows ctx w i) →
      wp (judge X ctx o n) (f (stepRowOutcome (resultRow now name value error started))) R s w') :
    wp (judge X ctx o n)
      (ask (.recordStepResult ctx.workflowId m name value error started) >>= f) R s w := by
  refine wp_bind fun w₁ henv r w₂ hr => ?_
  obtain ⟨hw₂, rfl⟩ := handle_recordStepResult hr
  have hnone₁ : rows ctx w₁ m = none := by rw [henv.rows_eq, hnone]
  have hsteps : w₂.store.steps = w₁.store.steps.insertNew (ctx.workflowId, m)
      (resultRow w₁.clock name value error started) := by rw [hw₂]
  have hrows := rows_insertNew hsteps hnone₁
  have hcalm₂ : Calm ctx w₁ → Calm ctx w₂ := by
    rw [hw₂]
    exact fun h => ⟨h.notCancelled, h.messages, h.events⟩
  refine ⟨⟨fun h => h.elim, .of_insert hnone₁ hrows (hallow _), hcalm₂⟩, ?_⟩
  have hlog : log w₁.store ctx.workflowId m = none := hnone₁
  rw [hlog, getD_none]
  refine hf w₂ _ (hcalm₂ (henv.calm hcalm)) (by rw [hrows, if_pos rfl]) fun i hi => ?_
  rw [hrows, if_neg hi, henv.rows_eq]

/-! ## Looking up and recording -/

/-- The row in slot `n` stands for `r` at `T`. -/
def Recorded (ctx : DurableContext) (n : Int) (T : Type) [Serde T] (w : World Inner)
    (r : Except Error T) : Prop :=
  ∃ row, rows ctx w n = some row ∧ r = outcomeValue T (stepRowOutcome row)

/-- A lookup ends the method with what the row stands for, or finds the slot empty and goes on. -/
theorem wp_replayOrGuard [Serde T] {f : Option T → Verb β} (hcalm : Calm ctx w)
    (hname : ∀ row, rows ctx w n = some row → row.name = name)
    (hfound : ∀ w₁ v, Calm ctx w₁ → Recorded ctx n T w₁ (.ok v) →
      wp (judge X ctx o n) (f (some v)) R s w₁)
    (hfailed : ∀ w₁ e, Calm ctx w₁ → Recorded ctx n T w₁ (.error e) → R (.error e) s w₁)
    (hempty : ∀ w₁, Env ctx w w₁ → rows ctx w₁ n = none → wp (judge X ctx o n) (f none) R s w₁) :
    wp (judge X ctx o n) (replayOrGuard ctx T n name >>= f) R s w := by
  refine wp_bind (wp_lookup fun w₁ henv => ?_)
  have hcalm₁ := henv.calm hcalm
  cases hrow : rows ctx w₁ n with
  | some row =>
    have hn : row.name = name := hname row (by rw [← henv.rows_eq, hrow])
    simp only [map_some, hn, ne_eq, not_true_eq_false, if_false]
    refine wp_bind ?_
    rw [wp_ofExcept]
    cases hv : outcomeValue T (stepRowOutcome row) with
    | ok v => exact hfound w₁ v hcalm₁ ⟨row, hrow, hv.symm⟩
    | error e => exact hfailed w₁ e hcalm₁ ⟨row, hrow, hv.symm⟩
  | none =>
    refine wp_status fun w₂ henv₂ => ?_
    have hnone₂ : rows ctx w₂ n = none := by rw [henv₂.rows_eq, hrow]
    have hrest := hempty w₂ (henv.trans henv₂) hnone₂
    cases hst : w₂.store.workflows.lookup ctx.workflowId with
    | none => exact hrest
    | some status =>
      simp only [(henv₂.calm hcalm₁).notCancelled status hst, if_false]
      exact hrest

/-- A success recorded in the empty slot of the operation is returned as the row stands for it. -/
theorem spec_checkpoint [Serde T] [LawfulSerde T] {v : T} (hcalm : Calm ctx w)
    (hwidth : 0 < o.width) (hnone : rows ctx w n = none) :
    wp (judge X ctx o n) (checkpoint ctx T n o.name v started)
      (fun r s' w' => s' = s ∧ Calm ctx w' ∧ Recorded ctx n T w' r) s w := by
  obtain ⟨j, hj, -⟩ := LawfulSerde.roundTrip v
  refine wp_toValue hj (wp_record hcalm hnone (fun _ => .inl ⟨rfl, hwidth, rfl⟩) ?_)
  intro w' now hcalm' hrow _
  exact ⟨rfl, hcalm', _, hrow, rfl⟩

/-- A failure recorded in the empty slot keeps its message, and the caller gets the live error. -/
theorem spec_recordFailure [Serde T] {err : Error} (hcalm : Calm ctx w) (hwidth : 0 < o.width)
    (hnone : rows ctx w n = none) :
    wp (judge X ctx o n) (recordFailure (provider X) ctx T n o.name err started)
      (fun r s' w' => s' = s ∧ Calm ctx w' ∧ r = .error err ∧
        Recorded ctx n T w' (.error (.app err.message))) s w := by
  refine wp_record hcalm hnone (fun _ => .inl ⟨rfl, hwidth, rfl⟩) ?_
  intro w' now hcalm' hrow _
  exact ⟨rfl, hcalm', rfl, _, hrow, rfl⟩

/-! ## Steps -/

/-- What an operation leaves: its sequence numbers taken, and a log that holds its result as the
answer at its slot. -/
def Post (ctx : DurableContext) (o : Op) (n : Int) (r : Except Error o.Result) (s : CtxState)
    (w : World Inner) : Prop :=
  s.seq = n + o.width ∧ Calm ctx w ∧
    Program.answer recorder (rows ctx w) o n = some (r.mapError Error.message)

theorem Post.of_row {r : Except Error o.Result} {row : StepRow} (hseq : s.seq = n + o.width)
    (hcalm : Calm ctx w) (hwidth : o.width ≠ 0) (hrow : rows ctx w n = some row)
    (hr : r.mapError Error.message = (o.recorded row).mapError Error.message) :
    Post ctx o n r s w :=
  ⟨hseq, hcalm, (Program.answer_of_row hwidth hrow).trans (congrArg some hr.symm)⟩

/-- The slots of `o` at `n` hold what `o` left there. -/
def Pre (ctx : DurableContext) (o : Op) (n : Int) (w : World Inner) : Prop :=
  Calm ctx w ∧ Program.Owned recorder (rows ctx w) o n

theorem Pre.name_eq (h : Pre ctx o n w) (hwidth : 0 < o.width) :
    ∀ row, rows ctx w n = some row → row.name = o.name := h.2.head hwidth

/-- Run a closure: any answer, as long as the slot is empty. -/
theorem spec_runStepCatching (hcalm : Calm ctx w) (hnone : rows ctx w n = none) :
    wp (judge X ctx o n) (runStepCatching T n name)
      (fun r s' w' => s' = s ∧ Calm ctx w' ∧ rows ctx w' n = none ∧ ∃ a, r = .ok a) s w := by
  refine wp_quiet (fun _ => hnone) id fun w₁ r henv => ?_
  have hnone₁ : rows ctx w₁ n = none := by rw [henv.rows_eq, hnone]
  cases r with
  | returned a => exact ⟨rfl, henv.calm hcalm, hnone₁, a, rfl⟩
  | panicked p => exact ⟨rfl, henv.calm hcalm, hnone₁, _, rfl⟩

/-- The attempts of a step end with some outcome, the slot still empty. -/
theorem spec_runWithRetries (hcalm : Calm ctx w) (hnone : rows ctx w n = none) :
    wp (judge X ctx o n) (runWithRetries T n opts)
      (fun r s' w' => s' = s ∧ Calm ctx w' ∧ rows ctx w' n = none ∧ ∃ a, r = .ok a) s w := by
  refine wp_loop (fun _ s' w' => s' = s ∧ Calm ctx w' ∧ rows ctx w' n = none)
    ⟨rfl, hcalm, hnone⟩ ?_
  rintro attempt _ w ⟨rfl, hcalm, hnone⟩
  refine wp_bind (wp_mono ?_ (spec_runStepCatching hcalm hnone))
  rintro _ s' w' ⟨rfl, hcalm', hnone', a, rfl⟩
  cases a with
  | ok v => exact ⟨rfl, hcalm', hnone', _, rfl⟩
  | error e =>
    simp only [after_ok]
    split
    · exact ⟨rfl, hcalm', hnone', _, rfl⟩
    · refine wp_quiet (e := .sleep _) (fun h => h.elim) id fun w₁ _ henv => ?_
      exact ⟨rfl, henv.calm hcalm', by rw [henv.rows_eq, hnone']⟩

/-- The result is the reading of the row in slot `n` at `T`, failures compared by message. -/
def Reads (ctx : DurableContext) (n : Int) (T : Type) [Serde T] (w : World Inner)
    (r : Except Error T) : Prop :=
  ∃ row, rows ctx w n = some row ∧
    r.mapError Error.message = (outcomeValue T (stepRowOutcome row)).mapError Error.message

omit [Serde DateTime] in
theorem Recorded.reads {T : Type} [Serde T] {r : Except Error T} (h : Recorded ctx n T w r) :
    Reads ctx n T w r := by
  obtain ⟨row, hrow, rfl⟩ := h
  exact ⟨row, hrow, rfl⟩

/-- **A checkpointed closure returns the reading of its row.** -/
theorem spec_checkpointed {T : Type} [Serde T] [LawfulSerde T] {attempt : Verb (Except Error T)}
    (hcalm : Calm ctx w) (hwidth : 0 < o.width)
    (hname : ∀ row, rows ctx w n = some row → row.name = o.name)
    (hattempt : ∀ w, Calm ctx w → rows ctx w n = none → wp (judge X ctx o n) attempt
      (fun r s' w' => s' = s ∧ Calm ctx w' ∧ rows ctx w' n = none ∧ ∃ a, r = .ok a) s w) :
    wp (judge X ctx o n) (checkpointed (provider X) ctx T n o.name attempt)
      (fun r s' w' => s' = s ∧ Calm ctx w' ∧ Reads ctx n T w' r) s w := by
  refine wp_replayOrGuard hcalm hname (fun w₁ v hcalm₁ hrec => ⟨rfl, hcalm₁, hrec.reads⟩)
    (fun w₁ e hcalm₁ hrec => ⟨rfl, hcalm₁, hrec.reads⟩) fun w₁ henv₁ hnone₁ => ?_
  refine wp_now fun w₂ started henv₂ => wp_bind (wp_mono ?_ (hattempt w₂
    (henv₂.calm (henv₁.calm hcalm)) (by rw [henv₂.rows_eq, hnone₁])))
  rintro _ _ w₃ ⟨rfl, hcalm₃, hnone₃, a, rfl⟩
  rw [after_ok]
  cases a with
  | ok v =>
    refine wp_mono ?_ (spec_checkpoint hcalm₃ hwidth hnone₃)
    rintro r s' w' ⟨rfl, hcalm', hrec⟩
    exact ⟨rfl, hcalm', hrec.reads⟩
  | error e =>
    refine wp_mono ?_ (spec_recordFailure hcalm₃ hwidth hnone₃)
    rintro r s' w' ⟨rfl, hcalm', rfl, row, hrow, hout⟩
    exact ⟨rfl, hcalm', row, hrow, by rw [← hout]; rfl⟩

theorem spec_step [Serde T] [LawfulSerde T] (hs : s.seq = n) (hpre : Pre ctx (.step T name) n w) :
    wp (judge X ctx (.step T name) n) (step (provider X) ctx T name)
      (Post ctx (.step T name) n) s w := by
  subst hs
  refine wp_nextSeq (wp_mono ?_ (spec_checkpointed (o := .step T name) hpre.1 Nat.one_pos
    (hpre.name_eq Nat.one_pos) fun w hcalm hnone => spec_runStepCatching hcalm hnone))
  rintro r s' w' ⟨rfl, hcalm', row, hrow, hr⟩
  exact .of_row rfl hcalm' Nat.one_ne_zero hrow hr

theorem spec_stepWith [Serde T] [LawfulSerde T] (hs : s.seq = n)
    (hpre : Pre ctx (.stepWith T opts) n w) :
    wp (judge X ctx (.stepWith T opts) n) (stepWith (provider X) ctx T opts)
      (Post ctx (.stepWith T opts) n) s w := by
  subst hs
  refine wp_nextSeq (wp_mono ?_ (spec_checkpointed (o := .stepWith T opts) hpre.1 Nat.one_pos
    (hpre.name_eq Nat.one_pos) fun w hcalm hnone => spec_runWithRetries hcalm hnone))
  rintro r s' w' ⟨rfl, hcalm', row, hrow, hr⟩
  exact .of_row rfl hcalm' Nat.one_ne_zero hrow hr

theorem spec_select [Serde T] [LawfulSerde T] {branches : Nat} (hs : s.seq = n)
    (hpre : Pre ctx (.select T branches) n w) :
    wp (judge X ctx (.select T branches) n) (select ctx T branches)
      (Post ctx (.select T branches) n) s w := by
  by_cases hb : branches = 0
  · subst hb
    exact ⟨by simpa [Op.width] using hs, hpre.1, rfl⟩
  · have hwidth : (Op.select T branches).width = 1 := by simp [Op.width, hb]
    have hpos : 0 < (Op.select T branches).width := by omega
    subst hs
    simp only [select, hb, if_false]
    refine wp_nextSeq (wp_replayOrGuard hpre.1 (hpre.name_eq hpos) ?_ ?_ ?_)
    · rintro w₁ v hcalm₁ ⟨row, hrow, hv⟩
      exact .of_row (by simp [hwidth]) hcalm₁ (by omega) hrow (congrArg _ hv)
    · rintro w₁ e hcalm₁ ⟨row, hrow, he⟩
      exact .of_row (by simp [hwidth]) hcalm₁ (by omega) hrow (congrArg _ he)
    · intro w₁ henv₁ hnone₁
      refine wp_now fun w₂ started henv₂ => ?_
      have hnone₂ : rows ctx w₂ s.seq = none := by rw [henv₂.rows_eq, hnone₁]
      refine wp_quiet (fun _ => hnone₂) (·.2) fun w₃ winner henv₃ => ?_
      have hcalm₃ := henv₃.calm (henv₂.calm (henv₁.calm hpre.1))
      refine wp_mono ?_ (spec_checkpoint hcalm₃ hpos (by rw [henv₃.rows_eq, hnone₂]))
      rintro r s' w' ⟨rfl, hcalm', row, hrow, hr⟩
      exact .of_row (by simp [hwidth]) hcalm' (by omega) hrow (congrArg _ hr)

/-! ## Timers and recorded values -/

/-- A timer row is read, or written in the empty slot; either way it holds what is returned. -/
theorem wp_durableWakeAt [LawfulSerde DateTime] {dur : Duration} (hcalm : Calm ctx w)
    (hname : ∀ row, rows ctx w m = some row → row.name = "DBOS.sleep")
    (hallow : ∀ now (t : DateTime) j, Serde.fromValue j = .ok t →
      Allowed o n m (resultRow now "DBOS.sleep" j none none))
    (hset : ∀ w₁ row t, Calm ctx w₁ → rows ctx w₁ m = some row → row.name = "DBOS.sleep" →
      outcomeValue DateTime (stepRowOutcome row) = .ok t →
      (∀ i, i ≠ m → rows ctx w₁ i = rows ctx w i) → wp (judge X ctx o n) (f t) R s w₁)
    (hfailed : ∀ w₁ row e, Calm ctx w₁ → rows ctx w₁ m = some row → rows ctx w₁ = rows ctx w →
      outcomeValue DateTime (stepRowOutcome row) = .error e → R (.error e) s w₁) :
    wp (judge X ctx o n) (durableWakeAt ctx m dur >>= f) R s w := by
  refine wp_bind (wp_lookup fun w₁ henv => ?_)
  have hcalm₁ := henv.calm hcalm
  cases hrow : rows ctx w₁ m with
  | some row =>
    have hn : row.name = "DBOS.sleep" := hname row (by rw [← henv.rows_eq, hrow])
    simp only [map_some, hn, ne_eq, not_true_eq_false, if_false, wp_ofExcept]
    cases hv : outcomeValue DateTime (stepRowOutcome row) with
    | ok t => exact hset w₁ row t hcalm₁ hrow hn hv fun i _ => by rw [henv.rows_eq]
    | error e => exact hfailed w₁ row e hcalm₁ hrow henv.rows_eq hv
  | none =>
    refine wp_now fun w₂ now henv₂ => ?_
    obtain ⟨j, hj, hj'⟩ := LawfulSerde.roundTrip (now.addStd dur)
    have hnone₂ : rows ctx w₂ m = none := by rw [henv₂.rows_eq, hrow]
    refine wp_toValue hj (wp_record (henv₂.calm hcalm₁) hnone₂ (fun _ => hallow _ _ _ hj') ?_)
    intro w₃ now' hcalm₃ hrow₃ hoff
    have hv : outcomeValue DateTime (stepRowOutcome (resultRow now' "DBOS.sleep" j none none)) =
        .ok (now.addStd dur) := by
      simp [outcomeValue, stepRowOutcome, resultRow, StepOutcome.intoValueResult, hj',
        Except.mapError]
    simp only [wp_ofExcept, hv, after_ok]
    exact hset w₃ _ _ hcalm₃ hrow₃ rfl hv fun i hi => by rw [hoff i hi, henv₂.rows_eq, henv.rows_eq]

theorem spec_sleep [LawfulSerde DateTime] {dur : Duration} (hs : s.seq = n)
    (hpre : Pre ctx (.sleep dur) n w) :
    wp (judge X ctx (.sleep dur) n) (sleep ctx dur) (Post ctx (.sleep dur) n) s w := by
  subst hs
  refine wp_nextSeq (wp_durableWakeAt hpre.1 (hpre.name_eq Nat.one_pos)
    (fun _ _ _ _ => .inl ⟨rfl, Nat.one_pos, rfl⟩) ?_ ?_)
  · intro w₁ row t hcalm₁ hrow _ hv _
    refine wp_now fun w₂ now henv₂ => ?_
    have hpost : ∀ w₃, Env ctx w₂ w₃ →
        Post ctx (.sleep dur) s.seq (.ok ()) { s with seq := s.seq + 1 } w₃ := by
      intro w₃ henv₃
      have hrow₃ : rows ctx w₃ s.seq = some row := by rw [henv₃.rows_eq, henv₂.rows_eq, hrow]
      exact .of_row rfl (henv₃.calm (henv₂.calm hcalm₁)) Nat.one_ne_zero hrow₃
        (by simp [Op.recorded, hv, Except.map])
    split
    · exact hpost w₂ (.refl ctx w₂)
    · exact wp_quiet (e := .sleep (t.remaining now)) (f := pure) (fun h => h.elim) id
        fun w₃ _ henv₃ => hpost w₃ henv₃
  · intro w₁ row e hcalm₁ hrow _ he
    exact .of_row rfl hcalm₁ Nat.one_ne_zero hrow (by simp [Op.recorded, he, Except.map])

/-- **A recorded value is the reading of its row.** -/
theorem spec_durableValue {T : Type} [Serde T] [LawfulSerde T] {produce : Int → Verb T}
    (hs : s.seq = n) (hcalm : Calm ctx w) (hwidth : 0 < o.width)
    (hname : ∀ row, rows ctx w n = some row → row.name = o.name)
    (hproduce : ∀ w s, Calm ctx w → rows ctx w n = none → wp (judge X ctx o n) (produce n)
      (fun r s' w' => s' = s ∧ Calm ctx w' ∧ rows ctx w' n = none ∧ ∃ v, r = .ok v) s w) :
    wp (judge X ctx o n) (durableValue ctx T o.name produce)
      (fun r s' w' => s'.seq = n + 1 ∧ Calm ctx w' ∧ Recorded ctx n T w' r) s w := by
  subst hs
  refine wp_nextSeq (wp_lookup fun w₁ henv => ?_)
  have hcalm₁ := henv.calm hcalm
  cases hrow : rows ctx w₁ s.seq with
  | some row =>
    have hn : row.name = o.name := hname row (by rw [← henv.rows_eq, hrow])
    simp only [map_some, hn, ne_eq, not_true_eq_false, if_false, wp_ofExcept]
    exact ⟨trivial, hcalm₁, row, hrow, rfl⟩
  | none =>
    refine wp_bind (wp_mono ?_ (hproduce w₁ _ hcalm₁ hrow))
    rintro _ _ w₂ ⟨rfl, hcalm₂, hnone₂, v, rfl⟩
    rw [after_ok]
    refine wp_mono ?_ (spec_checkpoint (v := v) hcalm₂ hwidth hnone₂)
    rintro r _ w' ⟨rfl, hrecorded⟩
    exact ⟨rfl, hrecorded⟩

theorem spec_produce {e : Eff} {g : Answer e → T}
    (hquiet : ∀ {w₁ r w₂}, (provider X).handle e w₁ r w₂ → w₂ = w₁) (hcalm : Calm ctx w)
    (hnone : rows ctx w n = none) :
    wp (judge X ctx o n) (do return g (← perform e))
      (fun r s' w' => s' = s ∧ Calm ctx w' ∧ rows ctx w' n = none ∧ ∃ v, r = .ok v) s w :=
  wp_quiet (fun _ => hnone) hquiet fun _ r henv =>
    ⟨rfl, henv.calm hcalm, by rw [henv.rows_eq, hnone], g r, rfl⟩

theorem spec_now [LawfulSerde DateTime] (hs : s.seq = n) (hpre : Pre ctx .now n w) :
    wp (judge X ctx .now n) (now ctx) (Post ctx .now n) s w := by
  refine wp_mono ?_ (spec_durableValue (o := .now) hs hpre.1 Nat.one_pos
    (hpre.name_eq Nat.one_pos) fun w s hcalm hnone =>
      spec_produce (e := .produceNow n) (g := id) (·.2) hcalm hnone)
  rintro r s' w' ⟨hseq, hcalm', row, hrow, hr⟩
  exact .of_row hseq hcalm' Nat.one_ne_zero hrow (congrArg _ hr)

theorem spec_uuid (hs : s.seq = n) (hpre : Pre ctx .uuid n w) :
    wp (judge X ctx .uuid n) (uuid ctx) (Post ctx .uuid n) s w := by
  refine wp_mono ?_ (spec_durableValue (o := .uuid) hs hpre.1 Nat.one_pos
    (hpre.name_eq Nat.one_pos) fun w s hcalm hnone =>
      spec_produce (e := .produceUuid n) (g := Uuid.text) id hcalm hnone)
  rintro r s' w' ⟨hseq, hcalm', row, hrow, hr⟩
  exact .of_row hseq hcalm' Nat.one_ne_zero hrow (congrArg _ hr)

theorem spec_random (hs : s.seq = n) (hpre : Pre ctx .random n w) :
    wp (judge X ctx .random n) (random ctx) (Post ctx .random n) s w := by
  refine wp_mono ?_ (spec_durableValue (o := .random) hs hpre.1 Nat.one_pos
    (hpre.name_eq Nat.one_pos) fun w s hcalm hnone =>
      spec_produce (e := .produceUuid n) (g := fraction) id hcalm hnone)
  rintro r s' w' ⟨hseq, hcalm', row, hrow, hr⟩
  exact .of_row hseq hcalm' Nat.one_ne_zero hrow (congrArg _ hr)

/-! ## Events and messages -/

theorem spec_setEvent [Serde T] {key : String} {value : T} {j : Value}
    (hj : Serde.toValue value = .ok j) (hj' : j ≠ .null) (hs : s.seq = n)
    (hpre : Pre ctx (.setEvent T key value) n w) :
    wp (judge X ctx (.setEvent T key value) n) (setEvent ctx T key value)
      (Post ctx (.setEvent T key value) n) s w := by
  subst hs
  have hpost : ∀ {w₁ row r}, Calm ctx w₁ → rows ctx w₁ s.seq = some row →
      r.mapError Error.message = ((Op.setEvent T key value).recorded row).mapError Error.message →
      Post ctx (.setEvent T key value) s.seq r { s with seq := s.seq + 1 } w₁ :=
    fun hcalm hrow hr => .of_row rfl hcalm Nat.one_ne_zero hrow hr
  refine wp_nextSeq (wp_replayOrGuard hpre.1 (hpre.name_eq Nat.one_pos) ?_ ?_ ?_)
  · rintro w₁ v hcalm₁ ⟨row, hrow, hv⟩
    exact hpost hcalm₁ hrow (by simp [Op.recorded, ← hv, Except.map])
  · rintro w₁ e hcalm₁ ⟨row, hrow, he⟩
    exact hpost hcalm₁ hrow (by simp [Op.recorded, ← he, Except.map])
  · intro w₁ henv₁ hnone₁
    refine wp_toValue hj (wp_bind fun w₂ henv₂ r w₃ hr => ?_)
    obtain ⟨rfl, rfl⟩ := handle_upsertEvent hr
    have hcalm₂ := henv₂.calm (henv₁.calm hpre.1)
    -- The event table gains a value that is not null; the rows stay as they are.
    have hcalm₃ : ∀ {w : World Inner}, Calm ctx w → Calm ctx { w with store :=
        { w.store with events := w.store.events.insert (ctx.workflowId, key) j } } := by
      refine fun h => ⟨h.notCancelled, h.messages, fun k v hk => ?_⟩
      by_cases hkey : k = (ctx.workflowId, key)
      · subst hkey
        rw [AList.lookup_insert] at hk
        cases hk
        exact hj'
      · exact h.events k v (by rwa [AList.lookup_insert_ne hkey] at hk)
    refine ⟨⟨fun h => h.elim, .refl, hcalm₃⟩, ?_⟩
    have hnone₂ : rows ctx w₂ s.seq = none := by rw [henv₂.rows_eq, hnone₁]
    refine wp_record (hcalm₃ hcalm₂) hnone₂ (fun _ => .inl ⟨rfl, Nat.one_pos, rfl⟩) ?_
    intro w' now hcalm' hrow _
    exact hpost hcalm' hrow rfl

/-- A wait that has found nothing yet: its slot is empty, its deadline slot holds a timer or
nothing. -/
structure Waiting (ctx : DurableContext) (o : Op) (n : Int) (w : World Inner) : Prop where
  calm : Calm ctx w
  empty : rows ctx w n = none
  tail : ∀ row, rows ctx w (n + 1) = some row → (recorder o).Tail row

theorem Waiting.env {w' : World Inner} (h : Waiting ctx o n w) (henv : Env ctx w w') :
    Waiting ctx o n w' where
  calm := henv.calm h.calm
  empty := by rw [henv.rows_eq, h.empty]
  tail row hrow := h.tail row (by rw [← henv.rows_eq, hrow])

/-- How one round of a wait ends: it goes on waiting, or its result is what the row in its slot
stands for. -/
def Round (ctx : DurableContext) (o : Op) (n : Int) {T : Type} [Serde T] (s₀ : CtxState) :
    Except Error (Option DateTime ⊕ Option T) → CtxState → World Inner → Prop
  | .ok (.inl _), s, w => s = s₀ ∧ Waiting ctx o n w
  | .ok (.inr v), s, w => s = s₀ ∧ Calm ctx w ∧ Recorded ctx n (Option T) w (.ok v)
  | .error e, s, w => s = s₀ ∧ Calm ctx w ∧ Recorded ctx n (Option T) w (.error e)

theorem spec_timeOutOrWait [Serde T] {deadline : DateTime} (hwidth : 0 < o.width)
    (h : Waiting ctx o n w) :
    wp (judge X ctx o n) (timeOutOrWait (provider X) ctx T n o.name wait deadline)
      (Round ctx o n s) s w := by
  refine wp_now fun w₁ now henv₁ => ?_
  have h₁ := h.env henv₁
  split
  · refine wp_record h₁.calm h₁.empty (fun _ => .inl ⟨rfl, hwidth, rfl⟩) ?_
    intro w₂ now' hcalm₂ hrow₂ _
    exact ⟨rfl, hcalm₂, _, hrow₂, rfl⟩
  · refine wp_quiet (e := .awaitChange _ _) (fun h => h.elim) id fun w₂ _ henv₂ => ?_
    exact ⟨rfl, h₁.env henv₂⟩

/-- A wait that found nothing goes on waiting, or records that it timed out. -/
theorem spec_waitOrTimeOut [LawfulSerde DateTime] [Serde T] {deadline : Option DateTime}
    (hwidth : o.width = 2) (h : Waiting ctx o n w) :
    wp (judge X ctx o n) (waitOrTimeOut (provider X) ctx T n (n + 1) o.name timeout wait deadline)
      (Round ctx o n s) s w := by
  cases deadline with
  | some d => exact spec_timeOutOrWait (by omega) h
  | none =>
    refine wp_durableWakeAt h.calm (fun row hrow => (h.tail row hrow).1) ?_ ?_ ?_
    · intro now t j hj
      refine .inr ⟨by omega, by omega, rfl, t, ?_⟩
      simp [outcomeValue, stepRowOutcome, resultRow, StepOutcome.intoValueResult, hj,
        Except.mapError]
    · intro w₁ row t hcalm₁ hrow₁ hname₁ hv hoff
      refine spec_timeOutOrWait (by omega) ⟨hcalm₁, by rw [hoff n (by omega), h.empty], ?_⟩
      intro row' hrow'
      obtain rfl : row = row' := Option.some.inj (hrow₁.symm.trans hrow')
      exact ⟨hname₁, t, hv⟩
    · intro w₁ row e _ hrow₁ hsame he
      obtain ⟨-, t, ht⟩ := h.tail row (by rw [← hsame, hrow₁])
      rw [he] at ht
      cases ht

omit [Serde DateTime] in
theorem calm_markConsumed {row : StepRow} {i : Nat} (h : Calm ctx w) :
    Calm ctx { w with store := { w.store with
      notifications := markConsumed w.store.notifications i
      steps := w.store.steps.insertNew (ctx.workflowId, n) row } } where
  notCancelled := h.notCancelled
  messages k hk := by
    obtain ⟨j, hj⟩ := mem_iff_getElem?.mp hk
    simp only [markConsumed, getElem?_modify] at hj
    split at hj
    · obtain ⟨k', hk', rfl⟩ := map_eq_some_iff.mp hj
      exact h.messages k' (mem_of_getElem? hk')
    · exact h.messages k (mem_of_getElem? (by simpa using hj))
  events := h.events

/-- A consumption by a waiting `recv` finds nothing, or its message is now the row in the slot. -/
theorem wp_consume {topic : String} {f : Option Value → Verb β} (hwidth : 0 < o.width)
    (h : Waiting ctx o n w)
    (hnone : ∀ w₁, Waiting ctx o n w₁ → wp (judge X ctx o n) (f none) R s w₁)
    (hsome : ∀ w₁ msg, Calm ctx w₁ → msg ≠ .null →
      rows ctx w₁ n = some { name := o.name, output := some msg } →
      wp (judge X ctx o n) (f (some msg)) R s w₁) :
    wp (judge X ctx o n)
      (ask (.consumeNotification ctx.workflowId topic n o.name) >>= f) R s w := by
  refine wp_bind fun w₁ henv r w₂ hr => ?_
  have h₁ := h.env henv
  rcases handle_consumeNotification hr with ⟨-, rfl, rfl⟩ | ⟨msg, i, hold, hw₂, rfl⟩
  · exact ⟨guar_same fun h => h.elim, hnone w₂ h₁⟩
  · have hmsg : msg.message ≠ .null :=
      h₁.calm.messages msg (mem_of_getElem? (oldest_mem hold).1)
    have hsteps : w₂.store.steps = w₁.store.steps.insertNew (ctx.workflowId, n)
        { name := o.name, output := some msg.message } := congrArg (·.store.steps) hw₂
    have hrows := rows_insertNew hsteps h₁.empty
    have hcalm₂ : Calm ctx w₁ → Calm ctx w₂ := by
      rw [hw₂]
      exact calm_markConsumed
    refine ⟨⟨fun h => h.elim, .of_insert h₁.empty hrows (.inl ⟨rfl, hwidth, rfl⟩), hcalm₂⟩, ?_⟩
    have hlog : log w₁.store ctx.workflowId n = none := h₁.empty
    rw [hlog, getD_none]
    exact hsome w₂ msg.message (hcalm₂ h₁.calm) hmsg (by rw [hrows, if_pos rfl])

/-- **What was found is what the row stands for**: reading a value at `T` and wrapping it is
reading it at `Option<T>`, unless it is null. -/
theorem spec_found [Serde T] {v : Value} {row : StepRow} (hcalm : Calm ctx w) (hv : v ≠ .null)
    (hrow : rows ctx w n = some row) (hout : stepRowOutcome row = .output v) :
    wp (judge X ctx o n) (do
      let x ← Verb.ofExcept ((Serde.fromValue (T := T) v).mapError .serde)
      return .inr (some x)) (Round ctx o n s) s w := by
  have hread : outcomeValue (Option T) (stepRowOutcome row) =
      ((Serde.fromValue (T := T) v).mapError Error.serde).map some := by
    rw [hout]
    simp only [outcomeValue, StepOutcome.intoValueResult, Serde.fromValue_option_of_ne_null hv]
    cases Serde.fromValue (T := T) v <;> rfl
  refine wp_bind ?_
  rw [wp_ofExcept]
  cases hx : (Serde.fromValue (T := T) v).mapError Error.serde with
  | ok x => exact ⟨rfl, hcalm, row, hrow, by rw [hread, hx]; rfl⟩
  | error e => exact ⟨rfl, hcalm, row, hrow, by rw [hread, hx]; rfl⟩

/-- **A wait returns the reading of its row**, if each of its rounds does. -/
theorem spec_wait [Serde T] (hwidth : o.width = 2) (hpre : Pre ctx o n w)
    {body : Option DateTime → Verb (Option DateTime ⊕ Option T)}
    (hbody : ∀ d w, Waiting ctx o n w → wp (judge X ctx o n) (body d) (Round ctx o n s) s w) :
    wp (judge X ctx o n) (do
      match ← replayOrGuard ctx (Option T) n o.name with
      | some stored => return stored
      | none => loop body none)
      (fun r s' w' => s' = s ∧ Calm ctx w' ∧ Recorded ctx n (Option T) w' r) s w := by
  refine wp_replayOrGuard hpre.1 (hpre.name_eq (by omega))
    (fun w₁ v hcalm₁ hrec => ⟨rfl, hcalm₁, hrec⟩) (fun w₁ e hcalm₁ hrec => ⟨rfl, hcalm₁, hrec⟩)
    fun w₁ henv₁ hnone₁ => ?_
  have htail : ∀ row, rows ctx w₁ (n + 1) = some row → (recorder o).Tail row := fun row hrow =>
    hpre.2.tail (n + 1) (by omega) (by simp only [recorder, hwidth]; omega) row
      (by rw [← henv₁.rows_eq, hrow])
  refine wp_loop (fun _ s' w' => s' = s ∧ Waiting ctx o n w')
    ⟨rfl, henv₁.calm hpre.1, hnone₁, htail⟩ ?_
  rintro d _ w₂ ⟨rfl, hwait⟩
  refine wp_mono ?_ (hbody d w₂ hwait)
  rintro (e | (d | v)) s' w' hr
  · exact hr
  · exact hr
  · exact hr

theorem spec_recv [LawfulSerde DateTime] [Serde T] {topic : String} (hs : s.seq = n)
    (hpre : Pre ctx (.recv T topic timeout) n w) :
    wp (judge X ctx (.recv T topic timeout) n) (recv (provider X) ctx T topic timeout)
      (Post ctx (.recv T topic timeout) n) s w := by
  subst hs
  refine wp_nextSeq (wp_nextSeq (wp_mono ?_ (spec_wait (o := .recv T topic timeout) rfl hpre ?_)))
  · rintro r s' w' ⟨rfl, hcalm', row, hrow, hr⟩
    exact .of_row (by simp [Op.width]; omega) hcalm' (by simp [Op.width]) hrow (congrArg _ hr)
  · intro d w₁ hwait
    refine wp_consume (o := .recv T topic timeout) Nat.two_pos hwait
      (fun w₂ hwait₂ => spec_waitOrTimeOut rfl hwait₂) fun w₂ msg hcalm₂ hmsg hrow₂ => ?_
    exact spec_found hcalm₂ hmsg hrow₂ rfl

theorem spec_getEvent [LawfulSerde DateTime] [Serde T] {target key : String} (hs : s.seq = n)
    (hpre : Pre ctx (.getEvent T target key timeout) n w) :
    wp (judge X ctx (.getEvent T target key timeout) n)
      (getEvent (provider X) ctx T target key timeout)
      (Post ctx (.getEvent T target key timeout) n) s w := by
  subst hs
  refine wp_nextSeq (wp_nextSeq (wp_mono ?_
    (spec_wait (o := .getEvent T target key timeout) rfl hpre ?_)))
  · rintro r s' w' ⟨rfl, hcalm', row, hrow, hr⟩
    exact .of_row (by simp [Op.width]; omega) hcalm' (by simp [Op.width]) hrow (congrArg _ hr)
  · intro d w₁ hwait
    refine wp_bind fun w₂ henv₂ r w₃ hr => ?_
    obtain ⟨rfl, rfl⟩ := handle_getEventValue hr
    have hwait₂ := hwait.env henv₂
    refine ⟨guar_same fun h => h.elim, ?_⟩
    cases hev : w₃.store.events.lookup (target, key) with
    | none => exact spec_waitOrTimeOut (o := .getEvent T target key timeout) rfl hwait₂
    | some v =>
      refine wp_record hwait₂.calm hwait₂.empty (fun _ => .inl ⟨rfl, Nat.two_pos, rfl⟩) ?_
      intro w₄ now hcalm₄ hrow₄ _
      exact spec_found hcalm₄ (hwait₂.calm.events _ v hev) hrow₄ rfl

/-- **Every replayable operation meets its specification.** -/
theorem spec_run [LawfulSerde DateTime] (ho : Replayable o) (hs : s.seq = n)
    (hpre : Pre ctx o n w) :
    wp (judge X ctx o n) (o.run (provider X) ctx) (Post ctx o n) s w := by
  cases o with
  | step T name =>
    have : LawfulSerde T := ho
    exact spec_step hs hpre
  | stepWith T opts =>
    have : LawfulSerde T := ho
    exact spec_stepWith hs hpre
  | select T branches =>
    have : LawfulSerde T := ho
    exact spec_select hs hpre
  | sleep dur => exact spec_sleep hs hpre
  | now => exact spec_now hs hpre
  | uuid => exact spec_uuid hs hpre
  | random => exact spec_random hs hpre
  | recv T topic timeout => exact spec_recv hs hpre
  | setEvent T key value =>
    obtain ⟨j, hj, hj'⟩ := ho
    exact spec_setEvent hj hj' hs hpre
  | getEvent T target key timeout => exact spec_getEvent hs hpre
  | send | writeStream | closeStream | startWorkflow | transaction | patch => exact ho.elim

end

end Durare.Replay
