import Durare.Engine.Absorbing
import Durare.Machinery.History

/-!
# Engine/Cancellation — why a row is cancelled

A row becomes `CANCELLED` because somebody asked, or because a deadline passed — or because
`run_to_completion` got a `Cancelled` error from the body and did not look whose it was, or had a
timer that no longer belongs to the row.  `recordedEngine` is the engine with its past, and
`Justified` says what a cancelled row may rest on: since the workflow was created or last resumed, a
cancel found it alive, or its own deadline has passed.

* `timely_runToCompletion` — only an execution whose timer has just fired writes an expired
  deadline.
* `Excused` is kept by every step that does not create or resume the workflow (`excused_step`).
* In every run in which the body's `Cancelled` error stems from the execution's own row and the
  timer from the deadline on it, every cancelled row is justified.
-/

namespace Durare.Memory

open List

open Verb

/-! ## The past of a workflow -/

/-- The in-memory world with its past. -/
abbrev Past := Traced Eff Answer (World Inner)

/-- A cancel of `id` that finds it not terminal. -/
def Asks (id : String) (e : Proc.Event Eff Answer (World Inner)) : Prop :=
  ∃ call row, e.call = .provider call ∧ Cancels id call ∧
    e.before.store.workflows.lookup id = some row ∧ row.status.isTerminal = false

/-- The workflow is created, or a resume takes effect. -/
def Renews (id : String) (e : Proc.Event Eff Answer (World Inner)) : Prop :=
  (e.before.store.workflows.lookup id = none ∧ e.after.store.workflows.lookup id ≠ none) ∨
    ∃ call row, e.call = .provider call ∧ Resumes id call ∧
      e.before.store.workflows.lookup id = some row ∧ resumable row = true

/-- Since `id` was created or last resumed, a cancel found it not terminal. -/
def Asked (id : String) (w : Past) : Prop := Since (fun e => ¬Renews id e) (Asks id) w.past

/-- The deadline on the row of `id` has passed. -/
def DeadlinePassed (id : String) (w : World Inner) : Prop :=
  ∃ row d, w.store.workflows.lookup id = some row ∧ row.deadlineMs = some d ∧
    d ≤ w.clock.timestampMillis

/-- What a cancelled row may rest on. -/
def Justified (id : String) (w : Past) : Prop := Asked id w ∨ DeadlinePassed id w.world

/-- There is no row, or a cancellation of it would be justified. -/
def Excused (id : String) (w : Past) : Prop :=
  w.world.store.workflows.lookup id = none ∨ Justified id w

variable {id : String}

theorem DeadlinePassed.later {w w' : World Inner} (h : DeadlinePassed id w) (hw : Tick w w') :
    DeadlinePassed id w' := by
  obtain ⟨row, d, hrow, hd, hle⟩ := h
  refine ⟨row, d, by rw [hw.1, hrow], hd, ?_⟩
  have hclock : w.clock.nanos ≤ w'.clock.nanos := hw.2
  unfold DateTime.timestampMillis at hle ⊢
  omega

theorem Touch.deadline {now : DateTime} {id : String} {call : ProviderCall}
    {row row' : WorkflowStatus} {d : Int} (h : Touch now id call (some row) (some row'))
    (hd : row.deadlineMs = some d) :
    row'.deadlineMs = some d ∨ Resumes id call ∧ resumable row = true := by
  cases h with
  | keep | write | enqueue | promote => exact .inl hd
  | resume hc hres => exact .inr ⟨hc, hres⟩
  | cancel hc hlive =>
    rw [cancelRow, if_neg (by simp [hlive])]
    exact .inl hd
  | @bump _ max =>
    refine .inl ?_
    simp only [bumpRow]
    split <;> exact hd
  | claim hst => exact .inl (by simp [claimRow, hd])

variable {ev : Proc.Event Eff Answer Past} {row' : WorkflowStatus}

section

variable {id : String} {w w' : Past} {e : Proc.Event Eff Answer (World Inner)}

/-- A call that was made and recorded. -/
structure Recorded (w : Past) (e : Proc.Event Eff Answer (World Inner)) (w' : Past) : Prop where
  before : e.before = w.world
  after : e.after = w'.world
  past : w'.past = e :: w.past
  world : (w'.world = w.world ∧ ∀ c, e.call ≠ .provider c) ∨ ∃ c uuid, e.call = .provider c ∧
    w'.world = ⟨(call c w.world.clock uuid w.world.store).2, w.world.clock⟩
  keyed : WellKeyed w.world.store

theorem recorded {X : TextCodec} (hg : WellKeyed w.world.store) {p p' : Proc Eff Answer Unit}
    (h : Proc.Step (Traced.handle (provider X).handle) p w (some ev) p' w') :
    Recorded w ev.erase w' := by
  obtain ⟨hbefore, hafter, hhandle, hpast⟩ := h.event
  obtain ⟨call, before, r, after⟩ := ev
  obtain rfl : before = w := hbefore
  obtain rfl : after = w' := hafter
  exact ⟨rfl, rfl, hpast, handle_cases hhandle, hg⟩

theorem Recorded.clock (h : Recorded w e w') : w'.world.clock = w.world.clock := by
  obtain ⟨heq, -⟩ | ⟨_, _, -, heq⟩ := h.world <;> rw [heq]

theorem Recorded.row (h : Recorded w e w') (id : String) :
    w'.world.store.workflows.lookup id = w.world.store.workflows.lookup id ∨
      ∃ c, e.call = .provider c ∧ Touch w.world.clock id c (w.world.store.workflows.lookup id)
        (w'.world.store.workflows.lookup id) := by
  obtain ⟨heq, -⟩ | ⟨c, uuid, hc, heq⟩ := h.world
  · exact .inl (by rw [heq])
  · rw [heq]
    exact .inr ⟨c, hc, touch h.keyed c uuid⟩

/-- **An excuse lasts until the workflow is created or resumed.** -/
theorem excused_step (he : Recorded w e w') (hrenew : ¬Renews id e) (hx : Excused id w) :
    Excused id w' := by
  cases hrow' : w'.world.store.workflows.lookup id with
  | none => exact .inl hrow'
  | some row' =>
    refine .inr ?_
    rcases hx with hnone | hasked | ⟨row, d, hrow, hd, hle⟩
    · -- The row has appeared: that is a creation.
      refine absurd (.inl ⟨?_, ?_⟩) hrenew
      · rw [he.before, hnone]
      · rw [he.after, hrow']
        exact fun h => nomatch h
    · refine .inl ?_
      unfold Asked
      rw [he.past]
      exact .inr ⟨hrenew, hasked⟩
    · refine .inr ⟨row', d, hrow', ?_, by rw [he.clock]; exact hle⟩
      obtain hsame | ⟨call, hcall, htouch⟩ := he.row id
      · rw [hrow', hrow] at hsame
        cases hsame
        exact hd
      · rw [hrow', hrow] at htouch
        obtain hd' | ⟨hres, hable⟩ := htouch.deadline hd
        · exact hd'
        · exact absurd (.inr ⟨call, row, hcall, hres, by rw [he.before, hrow], hable⟩) hrenew

/-- A workflow just created or resumed is not cancelled. -/
theorem not_cancelled_of_renews (he : Recorded w e w') (hengine : e.call.Engine)
    (hrenew : Renews id e) (hrow' : w'.world.store.workflows.lookup id = some row') :
    row'.status ≠ .cancelled := by
  rcases hrenew with ⟨hnone, -⟩ | ⟨call, row, hcall, hres, hrow, hable⟩
  · rw [he.before] at hnone
    obtain hsame | ⟨c, hc, htouch⟩ := he.row id
    · rw [hrow', hnone] at hsame
      exact nomatch hsame
    · rw [hrow', hnone] at htouch
      cases htouch with
      | create hid =>
        rw [hc] at hengine
        rcases hengine with hlive | ⟨_, ⟨⟩⟩
        intro hst
        have hlive : row'.status.isTerminal = false := hlive
        rw [hst] at hlive
        exact nomatch hlive
  · rw [he.before] at hrow
    obtain ⟨-, hnot⟩ | ⟨c, uuid, hc, heq⟩ := he.world
    · exact absurd hcall (hnot call)
    · obtain rfl : c = call := Eff.provider.inj (hc.symm.trans hcall)
      rw [heq] at hrow'
      have hresumed : some row' = some (resumeRow w.world.clock row) :=
        hrow'.symm.trans (lookup_of_resumes hres hrow hable)
      cases hresumed
      exact fun h => nomatch h

/-- **A step that leaves a cancelled row leaves it justified**, if it was before or the step has a
cause. -/
theorem justified_step (he : Recorded w e w') (hengine : e.call.Engine)
    (hjust : ∀ row, w.world.store.workflows.lookup id = some row → row.status = .cancelled →
      Justified id w)
    (hcause : ∀ output error, e.call = .provider (.setWorkflowStatus id .cancelled output error) →
      Excused id w)
    (hrow' : w'.world.store.workflows.lookup id = some row') (hst' : row'.status = .cancelled) :
    Justified id w' := by
  have hrenew : ¬Renews id e := fun h => not_cancelled_of_renews he hengine h hrow' hst'
  have hkeep (hx : Excused id w) : Justified id w' := by
    rcases excused_step he hrenew hx with hnone | hjust'
    · rw [hrow'] at hnone
      cases hnone
    · exact hjust'
  obtain hsame | ⟨call, hcall, htouch⟩ := he.row id
  · exact hkeep (.inr (hjust row' (hsame ▸ hrow') hst'))
  · rw [hrow'] at htouch
    cases hrow : w.world.store.workflows.lookup id with
    | none => exact hkeep (.inl hrow)
    | some row =>
      rw [hrow] at htouch
      cases htouch with
      | keep => exact hkeep (.inr (hjust row' hrow hst'))
      | @write _ status output error hguard =>
        obtain rfl : status = .cancelled := hst'
        exact hkeep (hcause output error hcall)
      | cancel hc hlive =>
        refine .inl ?_
        unfold Asked
        rw [he.past]
        exact .inl ⟨call, row, hcall, hc, by rw [he.before, hrow], hlive⟩
      | @bump _ max =>
        refine hkeep (.inr (hjust row hrow ?_))
        by_cases hcap : max < row.recoveryAttempts + 1
        · simp [bumpRow, hcap] at hst'
        · simpa [bumpRow, hcap] using hst'
      | resume _ _ | enqueue | claim _ | promote _ => cases hst'

end

/-! ## Timers -/

/-- The last call of the process was to its timer, which had fired at `timer`. -/
def Fired (own : List (Proc.Event Eff Answer Past)) (timer : DateTime) : Prop :=
  ∃ before after rest, own = ⟨.elapsed timer, before, true, after⟩ :: rest

/-- The clock does not go back. -/
def Later (w w' : Past) : Prop := w.world.clock ≤ w'.world.clock

theorem Later.refl (w : Past) : Later w w := Int.le_refl _

theorem Later.trans {w w' w'' : Past} (h : Later w w') (h' : Later w' w'') : Later w w'' :=
  Int.le_trans h h'

/-- The timer of the process has just fired, and rightly so. -/
def OutOfTime (x : Tracked.View Eff Answer (World Inner)) : Prop :=
  ∃ timer, Fired x.2 timer ∧ timer ≤ x.1.world.clock

/-- An expired deadline is written right after the timer fired. -/
def Timely (e : Eff) (x : Tracked.View Eff Answer (World Inner)) : Prop := e.Overdue → OutOfTime x

/-- What a process has to keep about its timer. -/
abbrev timerJudge (X : TextCodec) := Tracked.judge (provider X).handle Later Timely

theorem not_overdue_of_quiet {e : Eff} (h : e.Quiet) : ¬e.Overdue := by
  have htext {output : Option Value} {error : Option String} (h : Writes .cancelled output error) :
      error = some "cancelled" := by
    cases h
    rfl
  rintro ⟨id, rfl⟩
  have herror := htext h
  simp at herror

variable {α : Type}

section

variable {X : TextCodec} {s : CtxState} {y : Tracked.View Eff Answer (World Inner)}

theorem timely_of_quiet {x : Verb α} (h : x.Calls Eff.Quiet) :
    wp (timerJudge X) x (fun _ _ _ => True) s y :=
  (h s).wp (fun _ hc _ _ _ _ hover => absurd hover (not_overdue_of_quiet hc)) y

theorem outOfTime_cut {p : Proc Eff Answer α} (hp : p.Calls Eff.Quiet) (timer : DateTime) :
    Proc.wp (timerJudge X) (p.cut (.elapsed timer) fun fired => fired)
      (fun r x => r = none → OutOfTime x) y := by
  refine Proc.Calls.wp_cut (S := Eff.Quiet)
    (fun _ hc _ _ _ _ hover => absurd hover (not_overdue_of_quiet hc)) ?_ ?_ hp y
  · trivial
  · rintro x fired x' ⟨⟨⟨htimer, hsame⟩, -⟩, hown⟩ (rfl : fired = true)
    exact ⟨timer, ⟨_, _, _, hown⟩, by rw [hsame]; exact htimer rfl⟩

/-- Sequencing, for a judgement that asks nothing of results. -/
theorem timely_bind {β : Type} {x : Verb α} {f : α → Verb β}
    (hx : wp (timerJudge X) x (fun _ _ _ => True) s y)
    (hf : ∀ a s y, wp (timerJudge X) (f a) (fun _ _ _ => True) s y) :
    wp (timerJudge X) (x >>= f) (fun _ _ _ => True) s y := by
  refine wp_bind (wp_mono ?_ hx)
  rintro (e | a) s y -
  · trivial
  · exact hf a s y

variable [Serde DateTime] {E : Engine}

/-- **Only an execution whose timer has just fired writes an expired deadline.** -/
theorem timely_runToCompletion {rt : Runtime} {handler : WorkflowFn} {input : Value}
    {deadlineMs : Option Int} {auth : AuthContext} :
    wp (timerJudge X) (runToCompletion (provider X) rt handler id input deadlineMs auth)
      (fun _ _ _ => True) s y := by
  have hbody {ctx : DurableContext} := @calls_runBody _ X ctx _ (handler ctx input) {}
  unfold runToCompletion
  cases deadlineMs with
  | none =>
    exact timely_of_quiet (calls_bind (calls_ofProc hbody) fun _ => quiet_conclude _)
  | some dl =>
    refine wp_bind (wp_mono ?_ (timely_of_quiet (calls_perform trivial)))
    rintro (e | now) s₁ y₁ -
    · trivial
    · rw [after_ok]
      refine wp_bind (wp_ofProc (Proc.wp_mono ?_ (outOfTime_cut hbody (timerAt now dl))))
      rintro (_ | caught) y₂ hfired
      · rintro y₃ ⟨hlater, hown⟩ r y₄ -
        obtain ⟨timer, hf, hle⟩ := hfired rfl
        exact ⟨fun _ => ⟨timer, hown ▸ hf, Int.le_trans hle hlater⟩, by cases r <;> trivial⟩
      · exact timely_of_quiet (quiet_conclude caught)

theorem timely_dispatchPendingWorkflows : ∀ (pending : List WorkflowStatus) {s : CtxState}
    {y : Tracked.View Eff Answer (World Inner)},
    wp (timerJudge X) (dispatchPendingWorkflows E (provider X) pending) (fun _ _ _ => True) s y
  | [], _, _ => trivial
  | record :: pending, s, y => by
    have hrest {s y} := timely_dispatchPendingWorkflows pending (s := s) (y := y)
    refine timely_bind (timely_of_quiet (calls_perform trivial)) fun shutdown s y => ?_
    split
    · trivial
    · refine timely_bind (timely_of_quiet (calls_ask trivial)) fun attempts s y => ?_
      split
      · exact hrest
      · split
        · exact timely_bind (timely_of_quiet (calls_ask .enqueued)) fun _ _ _ =>
            timely_bind hrest fun _ _ _ => trivial
        · split
          · exact timely_bind (wp_attempt timely_runToCompletion) fun _ _ _ =>
              timely_bind hrest fun _ _ _ => trivial
          · exact hrest

theorem timely_recoverPendingWorkflows {executorIds : List String} :
    wp (timerJudge X) (recoverPendingWorkflows E (provider X) executorIds)
      (fun _ _ _ => True) s y :=
  timely_bind (timely_of_quiet (calls_ask trivial)) fun pending _ _ =>
    timely_dispatchPendingWorkflows pending

end

/-! ## The engine with its past -/

/-- A thread of the engine, with its own past. -/
abbrev TrackedTask := Tracked Eff Answer (World Inner) Unit

/-- The engine with its past. -/
abbrev TrackedPool := Pool TrackedTask Past

/-- What happens in one of its steps. -/
abbrev TrackedEvent := Pool.Happens TrackedTask (Option (Proc.Event Eff Answer Past))

/-- A read of the row of `id` that finds it cancelled. -/
def SeesCancelled (id : String) (e : Proc.Event Eff Answer Past) : Prop :=
  ∃ row, e.call = .provider (.getWorkflowStatus id) ∧
    e.before.world.store.workflows.lookup id = some row ∧ row.status = .cancelled

/-- The causes `run_to_completion` takes for granted when it writes `CANCELLED`. -/
structure OwnCause (c : TrackedPool) (e : TrackedEvent) : Prop where
  /-- the execution that reports a cancellation has seen its own row cancelled, and the workflow has
  not been created or resumed since -/
  cancelled : ∀ t ev id output, e = .ran t (some ev) →
    ev.call = .provider (.setWorkflowStatus id .cancelled output (some "cancelled")) →
    ∃ seen ∈ t.own, SeesCancelled id seen ∧ NoneSince (Renews id) seen.after.past c.world.past
  /-- the row still carries a deadline, and the timer of the execution was not set for an earlier
  instant -/
  deadline : ∀ t ev id output timer row, e = .ran t (some ev) →
    ev.call = .provider (.setWorkflowStatus id .cancelled output (some "deadline exceeded")) →
    Fired t.own timer → c.world.world.store.workflows.lookup id = some row →
    ∃ d, row.deadlineMs = some d ∧ d * 1000000 ≤ timer.nanos

section

variable [Serde DateTime] {X : TextCodec} {E : Engine}

/-- **The engine over the in-memory backend, with its past.** -/
def recordedEngine (X : TextCodec) (E : Engine) :
    Threads TrackedTask Past (Option (Proc.Event Eff Answer Past)) :=
  .tracked (provider X).handle (spawned (provider X) E)
    (fun _ p => ∃ req : Request, req.Served E ∧ p = req.run (provider X) E) Tick

/-- A thread that keeps to its timer. -/
abbrev TimerSafe (X : TextCodec) (t : TrackedTask) (w : Past) : Prop :=
  t.Safe (provider X).handle Later Timely w

omit [Serde DateTime] in
theorem TimerSafe.later {t : TrackedTask} {w w' : Past} (h : TimerSafe X t w) (hw : Later w w') :
    TimerSafe X t w' := Tracked.Safe.moved h Later.trans hw

omit [Serde DateTime] in
theorem safe_task {α : Type} {x : Verb α}
    (h : ∀ s y, wp (timerJudge X) x (fun _ _ _ => True) s y) (w : Past) :
    TimerSafe X ⟨x.task, []⟩ w :=
  ⟨(w, []), ⟨Later.refl w, rfl⟩, Proc.wp_bind (Proc.wp_mono (fun _ _ _ => trivial) (h {} _))⟩

theorem safe_request (req : Request) (w : Past) : TimerSafe X ⟨req.run (provider X) E, []⟩ w := by
  cases req with
  | start uuid I name input opts => exact safe_task (fun _ _ =>
    timely_of_quiet (quiet_of_routine calls_start)) w
  | cancelWorkflow id =>
    exact safe_task (fun _ _ => timely_of_quiet (calls_ask (c := .cancelWorkflow id) trivial)) w
  | cancelWorkflows ids =>
    exact safe_task (fun _ _ => timely_of_quiet (calls_ask (c := .cancelWorkflows ids) trivial)) w
  | resumeWorkflowOn id queue =>
    exact safe_task (fun _ _ => timely_of_quiet (quiet_of_routine calls_resumeWorkflowOn)) w
  | resumeWorkflowsOn ids queue =>
    exact safe_task (fun _ _ => timely_of_quiet (quiet_of_routine calls_resumeWorkflowsOn)) w
  | deleteWorkflows ids children =>
    exact safe_task (fun _ _ =>
      timely_of_quiet (calls_ask (c := .deleteWorkflows ids children) trivial)) w
  | recoverPendingWorkflows executorIds =>
    exact safe_task (fun _ _ => timely_recoverPendingWorkflows) w
  | queueDispatchLoop queue =>
    exact safe_task (fun _ _ => timely_of_quiet (quiet_of_routine calls_queueDispatchLoop)) w

theorem safe_spawned (e : Proc.Event Eff Answer (World Inner)) (w : Past) :
    ∀ p ∈ spawned (provider X) E e, TimerSafe X ⟨p, []⟩ w := by
  intro p hp
  unfold spawned at hp
  split at hp
  · split at hp
    · rw [mem_singleton.mp hp]
      exact safe_task (fun _ _ => timely_runToCompletion) w
    · exact nomatch hp
  · exact nomatch hp

end

/-! ## The invariant -/

/-- Whatever a process has seen cancelled is still excused, unless it was created or resumed
since. -/
def Remembers (own : List (Proc.Event Eff Answer Past)) (w : Past) : Prop :=
  ∀ seen ∈ own, seen.after.past.length ≤ w.past.length ∧ ∀ id, SeesCancelled id seen →
    NoneSince (Renews id) seen.after.past w.past → Excused id w

/-- Every cancelled row is justified. -/
def AllJustified (w : Past) : Prop :=
  ∀ id row, w.world.store.workflows.lookup id = some row → row.status = .cancelled → Justified id w

section

variable {w w' : Past} {own : List (Proc.Event Eff Answer Past)}

theorem remembers_nil : Remembers [] w := fun _ h => absurd h not_mem_nil

theorem Remembers.step {e : Proc.Event Eff Answer (World Inner)} (h : Remembers own w)
    (he : Recorded w e w') : Remembers own w' := by
  intro seen hseen
  obtain ⟨hlen, hexcused⟩ := h seen hseen
  rw [he.past]
  refine ⟨by rw [length_cons]; omega, fun id hsees hnone => ?_⟩
  obtain ⟨hrenew, hnone⟩ := hnone.of_cons hlen
  exact excused_step he hrenew (hexcused id hsees hnone)

theorem Remembers.cons {ev : Proc.Event Eff Answer Past} (h : Remembers own w)
    (hbefore : ev.before = w) (hafter : ev.after = w') (he : Recorded w ev.erase w')
    (hjust : AllJustified w) : Remembers (ev :: own) w' := by
  intro seen hseen
  rcases mem_cons.mp hseen with rfl | hseen
  · refine ⟨by rw [hafter], fun id hsees _ => ?_⟩
    obtain ⟨row, hcall, hrow, hst⟩ := hsees
    rw [hbefore] at hrow
    -- A read creates and resumes nothing.
    refine excused_step he ?_ (.inr (hjust id row hrow hst))
    rintro (⟨hnone, -⟩ | ⟨call, _, hres, hresumes, -⟩)
    · rw [he.before, hrow] at hnone
      exact nomatch hnone
    · have hread : Eff.provider (.getWorkflowStatus id) = .provider call := hcall.symm.trans hres
      cases hread
      exact hresumes
  · exact h.step he seen hseen

theorem Excused.later (h : Excused id w) (hstore : Tick w.world w'.world)
    (hpast : w'.past = w.past) : Excused id w' := by
  rcases h with hnone | hasked | hdeadline
  · refine .inl ?_
    rw [hstore.1]
    exact hnone
  · refine .inr (.inl ?_)
    unfold Asked
    rw [hpast]
    exact hasked
  · exact .inr (.inr (hdeadline.later hstore))

/-- A write of `CANCELLED` with the cause it takes for granted finds the workflow excused. -/
theorem excused_of_cause {c : TrackedPool} {e : TrackedEvent} (hcause : OwnCause c e)
    {t : TrackedTask} (he : e = .ran t (some ev)) (hengine : ev.call.Engine)
    (hrem : Remembers t.own c.world) (htimely : Timely ev.call (c.world, t.own))
    {output : Option Value} {error : Option String}
    (hcall : ev.call = .provider (.setWorkflowStatus id .cancelled output error)) :
    Excused id c.world := by
  rw [hcall] at hengine htimely
  rcases hengine with hwrites | ⟨id', hoverdue⟩
  · cases (show Writes .cancelled output error from hwrites) with
    | cancelled =>
      obtain ⟨seen, hseen, hsees, hnone⟩ := hcause.cancelled t ev id none he hcall
      exact (hrem seen hseen).2 id hsees hnone
  · cases hoverdue
    obtain ⟨timer, hfired, hle⟩ := htimely ⟨id, rfl⟩
    cases hrow : c.world.world.store.workflows.lookup id with
    | none => exact .inl hrow
    | some row =>
      obtain ⟨d, hd, htimer⟩ := hcause.deadline t ev id none timer row he hcall hfired hrow
      refine .inr (.inr ⟨row, d, hrow, hd, ?_⟩)
      have hle : timer.nanos ≤ c.world.world.clock.nanos := hle
      unfold DateTime.timestampMillis
      omega

variable [Serde DateTime] {X : TextCodec} {E : Engine}

/-- **What every step keeps**, if it has the causes it takes for granted. -/
theorem keeps_justified : Pool.Keeps (recordedEngine X E)
    (fun c e _ => OwnCause c e ∧ Sound c.erase) AllJustified
    (fun t w => TimerSafe X t w ∧ Remembers t.own w) := by
  refine ⟨?_, ?_, ?_⟩
  · rintro ⟨p, own⟩ w ⟨⟨req, -, rfl⟩, rfl⟩ -
    exact ⟨safe_request req w, remembers_nil⟩
  · rintro w w' ⟨htick, hpast⟩ hjust
    refine ⟨fun id row hrow hst => ?_, fun t ⟨hsafe, hrem⟩ =>
      ⟨TimerSafe.later hsafe htick.2, fun seen hseen => ?_⟩⟩
    · have hrow' : w.world.store.workflows.lookup id = some row := by rw [← hrow, htick.1]
      rcases (Excused.later (.inr (hjust id row hrow' hst)) htick hpast) with hnone | h
      · rw [hrow] at hnone
        cases hnone
      · exact h
    · rw [hpast]
      exact ⟨(hrem seen hseen).1, fun id hsees hnone =>
        ((hrem seen hseen).2 id hsees hnone).later htick hpast⟩
  · rintro pre post new t t' w w' l hs ⟨hcause, hsound⟩ hjust ⟨hsafe, hrem⟩
    obtain ⟨htimely, hsafe'⟩ := hsafe.step Later.refl hs
    obtain ⟨hstep, hown, rfl⟩ := hs
    cases l with
    | none =>
      obtain rfl := hstep.silent
      rw [show t'.own = t.own from hown]
      exact ⟨hjust, ⟨hsafe', hrem⟩, fun _ h => absurd h not_mem_nil, fun _ _ h => h⟩
    | some ev =>
      have hrec := recorded hsound.keyed hstep
      obtain ⟨hengine, -⟩ := (hsound.calls t.proc (by simp [Pool.erase])).step hstep.erase
      have hclock : Later w w' := by
        unfold Later
        rw [hrec.clock]
        exact Int.le_refl _
      refine ⟨fun id row => justified_step hrec (hengine _ rfl) (hjust id) fun output error =>
        excused_of_cause hcause rfl (hengine _ rfl) hrem (htimely ev rfl), ⟨hsafe', ?_⟩, ?_, ?_⟩
      · rw [show t'.own = ev :: t.own from hown]
        exact hrem.cons hstep.event.1 hstep.event.2.1 hrec hjust
      · intro n hn
        obtain ⟨p, hp, rfl⟩ := mem_map.mp hn
        exact ⟨safe_spawned ev.erase w' p hp, remembers_nil⟩
      · exact fun u _ ⟨hu, hrem'⟩ => ⟨TimerSafe.later hu hclock, hrem'.step hrec⟩

/-- **A cancelled row is justified**: since the workflow was created or last resumed, a cancel of it
found it alive, or its own deadline has passed — in every state of every run whose writes of
`CANCELLED` have the causes they take for granted. -/
theorem cancelled_justified {w₀ : World Inner} (hg : WellKeyed w₀.store)
    (hfresh : ∀ id row, w₀.store.workflows.lookup id = some row → row.status ≠ .cancelled)
    {c : TrackedPool}
    (h : Pool.Run (recordedEngine X E) (fun a e _ => OwnCause a e) ⟨⟨w₀, []⟩, []⟩ c) {id : String}
    {row : WorkflowStatus} (hrow : c.world.world.store.workflows.lookup id = some row)
    (hst : row.status = .cancelled) : Asked id c.world ∨ DeadlinePassed id c.world.world := by
  have hsound : ∀ a e b, Pool.Step (recordedEngine X E) a e b → OwnCause a e → Sound a.erase →
      Sound b.erase := fun a e b hs _ ha =>
    sound_run ((Pool.Run.refl _).tail hs.erase trivial :
      Pool.Run (engine (provider X) E) (fun _ _ _ => True) a.erase b.erase) ha
  have h' := h.assuming hsound ⟨hg, fun _ h => (nomatch h)⟩
  obtain ⟨hjust, -⟩ := h'.invariant keeps_justified
    (fun id row hrow hst => absurd hst (hfresh id row hrow)) fun _ h => (nomatch h)
  exact hjust id row hrow hst

end

/-! ## Runs -/

section

attribute [local instance] serdeNanos

/-- The workflow `r` writes a report in one step, and `s` waits for the result of `r`. -/
def office : Engine where
  registry := [
    ("report", fun _ _ => .op (.op (.step Unit "write")) fun r =>
      .done (.returned (r.map fun _ => .null))),
    ("summary", fun _ _ => .op (.result Unit "r") fun r =>
      .done (.returned (r.map fun _ => .null)))]
  appVersion := ""

/-- A step that writes no `CANCELLED` needs no cause. -/
theorem ownCause_of_ne {c : TrackedPool} {t : TrackedTask}
    (h : ∀ id output error, ev.call ≠ .provider (.setWorkflowStatus id .cancelled output error)) :
    OwnCause c (.ran t (some ev)) := by
  constructor
  · rintro _ _ id output ⟨rfl, rfl⟩ hcall
    exact absurd hcall (h id output _)
  · rintro _ _ id output _ _ ⟨rfl, rfl⟩ hcall
    exact absurd hcall (h id output _)

/-- `r` is started, cancelled while it runs, and found cancelled by its own next step: the execution
reports the cancellation of its own row. -/
theorem cancelled_justified_report : ∃ c row,
    Pool.Run (recordedEngine noText office) (fun a e _ => OwnCause a e) ⟨⟨⟨{}, ⟨0⟩⟩, []⟩, []⟩ c ∧
      c.world.world.store.workflows.lookup "r" = some row ∧ row.status = .cancelled ∧
      row.error = some "cancelled" ∧ (Asked "r" c.world ∨ DeadlinePassed "r" c.world.world) := by
  have hsilent {c : TrackedPool} {e : TrackedEvent} (h : ∀ t ev, e ≠ .ran t (some ev)) :
      OwnCause c e :=
    ⟨fun t ev _ _ he => absurd he (h t ev), fun t ev _ _ _ _ he => absurd he (h t ev)⟩
  have hstart : Pool.Run (recordedEngine noText office) (fun a e _ => OwnCause a e)
      ⟨⟨⟨{}, ⟨0⟩⟩, []⟩, []⟩ _ :=
    (Pool.Run.refl _).enter (t := ⟨_, []⟩)
      ⟨⟨.start "" Unit "report" () { workflowId := some "r" }, trivial, rfl⟩, rfl⟩
      (hsilent fun _ _ h => nomatch h)
  have hrunning := hstart |>.turnTracked 0 rfl (hsilent fun _ _ h => nomatch h)
    |>.actTracked 0 rfl _ ⟨rfl, rfl⟩ (ownCause_of_ne fun _ _ _ h => nomatch h)
    |>.actTracked 0 rfl _ ⟨rfl, rfl⟩ (ownCause_of_ne fun _ _ _ h => nomatch h)
    |>.actTracked 0 rfl _ told (ownCause_of_ne fun _ _ _ h => nomatch h)
    |>.actTracked 0 rfl () rfl (ownCause_of_ne fun _ _ _ h => nomatch h)
  have hcancelled := hrunning
    |>.enter (t := ⟨_, []⟩) ⟨⟨.cancelWorkflow "r", trivial, rfl⟩, rfl⟩
      (hsilent fun _ _ h => nomatch h)
    |>.actTracked 0 rfl _ told (ownCause_of_ne fun _ _ _ h => nomatch h)
  have hseen := hcancelled
    |>.actTracked 2 rfl _ told (ownCause_of_ne fun _ _ _ h => nomatch h)
    |>.actTracked 2 rfl _ told (ownCause_of_ne fun _ _ _ h => nomatch h)
  have hover := hseen.actTracked 2 rfl _ told (by
    constructor
    · rintro _ _ id output ⟨rfl, rfl⟩ ⟨rfl, rfl⟩
      exact ⟨_, mem_cons_self, ⟨_, rfl, rfl, rfl⟩, .refl⟩
    · rintro _ _ id output timer row ⟨rfl, rfl⟩ hcall
      simp at hcall)
  have hfresh : ∀ id row, ({} : Inner).workflows.lookup id = some row → row.status ≠ .cancelled :=
    fun _ _ h => nomatch h
  exact ⟨_, _, hover, rfl, rfl, rfl, cancelled_justified wellKeyed_empty hfresh hover rfl rfl⟩

/-- **A workflow is cancelled that nobody cancelled**: `s` waits for the result of `r`, which is
cancelled, returns the error it gets, and its own row is written `CANCELLED`. -/
theorem cancelled_unasked : ∃ c row,
    Pool.Run (recordedEngine noText office) (fun _ _ _ => True) ⟨⟨⟨{}, ⟨0⟩⟩, []⟩, []⟩ c ∧
      c.world.world.store.workflows.lookup "s" = some row ∧ row.status = .cancelled ∧
      ¬(Asked "s" c.world ∨ DeadlinePassed "s" c.world.world) := by
  have hstart : Pool.Run (recordedEngine noText office) (fun _ _ _ => True)
      ⟨⟨⟨{}, ⟨0⟩⟩, []⟩, []⟩ _ :=
    (Pool.Run.refl _).enter (t := ⟨_, []⟩)
      ⟨⟨.start "" Unit "report" () { workflowId := some "r" }, trivial, rfl⟩, rfl⟩ trivial
  have hcancelled := hstart |>.turnTracked 0 rfl trivial
    |>.actTracked 0 rfl _ ⟨rfl, rfl⟩ trivial |>.actTracked 0 rfl _ ⟨rfl, rfl⟩ trivial
    |>.actTracked 0 rfl _ told trivial |>.actTracked 0 rfl () rfl trivial
    |>.enter (t := ⟨_, []⟩) ⟨⟨.cancelWorkflow "r", trivial, rfl⟩, rfl⟩ trivial
    |>.actTracked 0 rfl _ told trivial
  have hwaiting := hcancelled
    |>.enter (t := ⟨_, []⟩)
      ⟨⟨.start "" Unit "summary" () { workflowId := some "s" }, trivial, rfl⟩, rfl⟩ trivial
    |>.turnTracked 0 rfl trivial
    |>.actTracked 0 rfl _ ⟨rfl, rfl⟩ trivial |>.actTracked 0 rfl _ ⟨rfl, rfl⟩ trivial
    |>.actTracked 0 rfl _ told trivial |>.actTracked 0 rfl () rfl trivial
  have hover := hwaiting |>.turnTracked 4 rfl trivial
    |>.actTracked 4 rfl _ told trivial |>.actTracked 4 rfl _ told trivial
  refine ⟨_, _, hover, rfl, rfl, ?_⟩
  rintro (hasked | ⟨row, d, hrow, hd, -⟩)
  · obtain ⟨e, hmem, call, _, hcall, hcancels, -⟩ := hasked.exists
    simp only [mem_cons, not_mem_nil, or_false] at hmem
    rcases hmem with rfl | rfl | rfl | rfl | rfl | rfl | rfl | rfl | rfl | rfl | rfl | rfl <;>
      cases hcall <;> simp [Cancels] at hcancels
  · cases hrow
    exact nomatch hd

end

end Durare.Memory
