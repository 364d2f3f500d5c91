import Durare.Engine.Footprints
import Durare.Machinery.History
import Durare.Operations.System
import Durare.Schedule.Model

/-!
# Schedule/Ticks — at most one run per scheduled tick

Any number of engines run fire loops, reconcilers and backfills over one in-memory store, clients
and engines trigger and backfill schedules, and the rest of the system does to the store what it
likes as long as it removes no workflow.  The insert of a row is what decides: it is answered
`created` at most once per id, and a task starts a run only right after such an answer to its own
insert, if the row has no queue (`Promise`).  So a tick is never started more often than it was
created (`Tally`).

* `spec_persistScheduledTick` — what is known when a tick has been inserted.
* `abides_run` — every task keeps the promise.
* `at_most_one_run_per_tick` — the result, with the ids of ticks told apart.
-/

namespace Durare

open List

open Verb Debounce Memory

/-! ## Nothing is deleted -/

namespace Memory

/-- The operation removes workflows. -/
def Operation.Removes : Operation → Prop
  | .call (.deleteWorkflows _ _) | .garbageCollect _ _ => True
  | _ => False

variable {X : TextCodec} {now : DateTime} {id : String} {op : Operation}
  {x y : Option WorkflowStatus}

/-- **A row stays** under an operation that removes none. -/
theorem Touches.isSome (h : Touches X now id op x y) (hop : ¬op.Removes) (hx : x.isSome) :
    y.isSome := by
  cases h with
  | keep => exact hx
  | call h =>
    cases h with
    | keep => exact hx
    | delete => exact absurd trivial hop
    | _ => rfl
  | collect => exact absurd trivial hop
  | _ => rfl

end Memory

/-! ## What a call created and started -/

section

variable {W : Type*}

/-- The queue of the row that a call created under `id`, if it was answered that it did. -/
def created (id : String) : (c : ScheduleEff) → ScheduleAnswer c → Option (Option String)
  | .base (.provider (.insertWorkflowStatus status)), .ok (_, true) =>
    if status.id = id then some status.queueName else none
  | _, _ => none

theorem insert_of_created {id : String} {c : ScheduleEff} {r : ScheduleAnswer c}
    (h : (created id c r).isSome) : ∃ status canonical,
      (⟨c, r⟩ : (c : ScheduleEff) × ScheduleAnswer c) =
        ⟨.base (.provider (.insertWorkflowStatus status)), .ok (canonical, true)⟩ ∧
      status.id = id := by
  cases c with
  | base e =>
    cases e with
    | provider c =>
      cases c with
      | insertWorkflowStatus status =>
        cases r with
        | error e => cases h
        | ok a =>
          obtain ⟨canonical, _ | _⟩ := a
          · cases h
          · refine ⟨status, canonical, rfl, ?_⟩
            by_contra hne
            rw [created, if_neg hne] at h
            cases h
      | _ => cases h
    | _ => cases h
  | _ => cases h

/-- The call created the row of `id`. -/
def creates (id : String) (e : ScheduleEvent W) : Bool := (created id e.call e.answer).isSome

/-- The call created the row of `id`, without a queue. -/
def createsDirect (id : String) (e : ScheduleEvent W) : Bool :=
  created id e.call e.answer = some none

/-- The call starts the run of `id`. -/
def spawnsOf (id : String) : ScheduleEff → Bool
  | .base (.spawn id' _ _ _ _) => id' = id
  | _ => false

/-- The call started the run of `id`. -/
def launches (id : String) (e : ScheduleEvent W) : Bool := spawnsOf id e.call

end

/-! ## The promise of a task -/

/-- What a task sees: the board, everything that was called, and its own calls. -/
abbrev TickView := Tracked.View ScheduleEff ScheduleAnswer (Board Inner)

/-- The last call created the row of `id`, without a queue. -/
def justCreated {W : Type*} (id : String) (own : List (ScheduleEvent W)) :
    Bool :=
  own.head?.any (createsDirect id)

/-- **What the tasks promise**: they delete nothing, and start a run only right after their own
insert has created its row without a queue.  A triggered run is another matter. -/
def Promise : ScheduleEff → TickView → Prop
  | .base (.spawn id _ _ _ _), x =>
    (∃ name now, id = triggerId name now) ∨ justCreated id x.2 = true
  | .base (.provider (.deleteWorkflows _ _)), _ => False
  | _, _ => True

/-- The others do not matter to what a task promises. -/
def ticking (X : TextCodec) : Proc.Judge ScheduleEff ScheduleAnswer TickView :=
  Tracked.judgeAlone (Board.handle (provider X)) Promise

/-- An effect that needs no attention: it deletes nothing, and starts only what was triggered. -/
def Eff.Modest : Eff → Prop
  | .spawn id _ _ _ _ => ∃ name now, id = triggerId name now
  | .provider (.deleteWorkflows _ _) => False
  | _ => True

theorem Eff.Modest.promise {e : Eff} (h : e.Modest) (x : TickView) : Promise (.base e) x := by
  cases e with
  | provider c =>
    cases c with
    | deleteWorkflows => exact h
    | _ => trivial
  | spawn => exact .inl h
  | _ => trivial

theorem Eff.NewRun.modest {e : Eff} (h : e.NewRun) : e.Modest := by
  cases h with
  | insert => trivial

section

variable {X : TextCodec} {α : Type} {x : Verb α}

theorem abides_consult {e : ScheduleEff} {f : ScheduleAnswer e → ScheduleProc α}
    (h : ∀ x, Promise e x) (hf : ∀ r, (f r).Abides (ticking X)) :
    (consult e >>= f).Abides (ticking X) :=
  .call (fun x _ _ _ => h x) hf

variable {Q : Except Error α → CtxState → TickView → Prop}

theorem wp_lift {w : TickView} (h : wp ((ticking X).via ScheduleEff.base) x Q {} w) :
    Proc.wp (ticking X) (lift x) (fun r w => ∃ s, Q r s w) w :=
  Proc.wp_bind (Proc.wp_mono (fun r _ hr => ⟨r.2, hr⟩) (Proc.wp_via _ h))

theorem abides_lift (h : ∀ w, wp ((ticking X).via ScheduleEff.base) x Q {} w) :
    (lift x).Abides (ticking X) :=
  fun w => Proc.wp_mono (fun _ _ _ => trivial) (wp_lift (h w))

theorem abides_modest (h : x.Calls Eff.Modest) : (lift x).Abides (ticking X) :=
  abides_lift (Q := fun _ _ _ => True) fun w => (h {}).wp (fun _ he y _ _ _ => he.promise y) w

end

/-! ## The tasks keep it -/

variable {input : ScheduledInput} {schedule : WorkflowSchedule}

section

variable {X : TextCodec} {lib : CronLib} {E : Engine} [Serde DateTime] {s : CtxState} {w : TickView}

/-- What is known of a tick that has been inserted: if this call created its row and it is not
queued, then that was the last call. -/
def Persisted : WorkflowStatus × Bool × Bool × String → CtxState → TickView → Prop
  | (_, queued, created, id), _, w => queued = false → created = true → justCreated id w.2 = true

variable {instant : DateTime}

/-- **The insertion of a tick.** -/
theorem spec_persistScheduledTick :
    wp ((ticking X).via ScheduleEff.base) (persistScheduledTick E schedule instant)
      (IfOk Persisted) s w := by
  obtain ⟨_, scheduleName, workflowName, _, _, _, _, _, _, queue⟩ := schedule
  have hinsert {input : Value} {s : CtxState} {w : TickView} : wp ((ticking X).via ScheduleEff.base)
        (insertRun.insert E.runtime (tickId scheduleName instant) workflowName input
          { workflowId := some (tickId scheduleName instant), queue := queue } none {})
        (IfOk fun r _ w => r.2.1 = false → r.2.2 = true →
          justCreated (tickId scheduleName instant) w.2 = true) s w := by
    refine wp_perform fun w₁ _ now w₂ _ => ⟨trivial, ?_⟩
    refine wp_perform fun w₃ _ at' w₄ _ => ⟨trivial, ?_⟩
    refine wp_ask fun w₅ _ r w₆ hr => ⟨trivial, ?_⟩
    cases r with
    | error e => trivial
    | ok a =>
      obtain ⟨canonical, created⟩ := a
      intro hqueue hcreated
      obtain rfl : created = true := hcreated
      obtain rfl : queue = none := Option.isNone_iff_eq_none.mp (by simpa using hqueue)
      have hown : w₆.2 = _ :: w₅.2 := hr.2
      rw [hown]
      exact decide_eq_true (if_pos rfl)
  refine wp_toValue_cases (fun _ _ => trivial) fun input _ => ?_
  refine wp_ifOk_bind (Q := fun r _ w => r.2.1 = false → r.2.2 = true →
    justCreated (tickId scheduleName instant) w.2 = true) ?_ fun r _ _ h => by
      obtain ⟨_, _, _⟩ := r
      exact h
  unfold insertRun
  split
  · split
    · trivial
    · exact hinsert
  · exact hinsert

omit [Serde DateTime] in
theorem spec_launchScheduledTick {schedule : WorkflowSchedule} {canonical : WorkflowStatus}
    {queued created : Bool} {id : String} (h : Persisted (canonical, queued, created, id) s w) :
    wp ((ticking X).via ScheduleEff.base)
      (launchScheduledTick E schedule canonical queued created id) (fun _ _ _ => True) s w := by
  unfold launchScheduledTick
  split
  · trivial
  · next hgo =>
      simp only [Bool.or_eq_true, not_or, Bool.not_eq_true, Bool.not_eq_false'] at hgo
      split
      · refine fun w₁ hw₁ r w₂ _ => ⟨.inr ?_, trivial⟩
        have hown : w₁.2 = w.2 := hw₁.2
        rw [hown]
        exact h hgo.1.1 hgo.1.2
      · trivial

theorem spec_fireTicks (instants : List DateTime) :
    ∀ s w, wp ((ticking X).via ScheduleEff.base) (fireTicks E schedule instants)
      (IfOk fun _ _ _ => True) s w := by
  induction instants with
  | nil => exact fun _ _ => trivial
  | cons instant instants ih =>
    intro s w
    refine wp_ifOk_bind spec_persistScheduledTick ?_
    rintro ⟨canonical, queued, created, id⟩ s₁ w₁ h
    refine wp_ifOk_bind (Q := fun _ _ _ => True)
      (wp_mono (fun r _ _ _ => by cases r <;> trivial) (spec_launchScheduledTick h)) ?_
    exact fun _ s₂ w₂ _ => wp_ifOk_bind (ih s₂ w₂) fun _ _ _ _ => trivial

theorem abides_backfillTicks {start till : DateTime} :
    (lift (backfillTicks lib E schedule start till)).Abides (ticking X) := by
  refine abides_lift fun w => wp_ifOk_bind
    (Q := fun _ _ _ => True) ?_ fun cron s₁ w₁ _ => spec_fireTicks _ s₁ w₁
  rw [wp_ofExcept]
  cases parseCron lib schedule.schedule with
  | error e => trivial
  | ok cron => trivial

/-- A tick is inserted, and started if need be. -/
theorem abides_tick {β : Type} {k : Except Error Unit → ScheduleProc β}
    {k' : Error → ScheduleProc β} (hk : ∀ r, (k r).Abides (ticking X))
    (hk' : ∀ e, (k' e).Abides (ticking X)) :
    ((lift (persistScheduledTick E schedule instant)).bind fun r => match r with
      | .ok (canonical, queued, created, id) =>
        (lift (launchScheduledTick E schedule canonical queued created id)).bind k
      | .error e => k' e).Abides (ticking X) := by
  refine fun w => Proc.wp_bind (Proc.wp_mono ?_ (wp_lift spec_persistScheduledTick))
  rintro (e | ⟨canonical, queued, created, id⟩) w' ⟨s, h⟩
  · exact hk' e w'
  · have hlaunch : wp ((ticking X).via ScheduleEff.base)
        (launchScheduledTick E schedule canonical queued created id) (fun _ _ _ => True) {} w' :=
      spec_launchScheduledTick h
    exact Proc.wp_bind (Proc.wp_mono (fun r w'' _ => hk r w'') (wp_lift hlaunch))

theorem abides_fireRound {cron : lib.Cron} (since : Option DateTime) :
    (fireRound lib E schedule cron since).Abides (ticking X) := by
  refine abides_consult (fun _ => trivial) fun stopped => ?_
  split
  · exact .ret
  refine abides_consult (fun _ => trivial) fun now => ?_
  split
  · exact .ret
  · next next _ =>
      refine abides_consult (fun _ => trivial) fun now' => ?_
      refine .bind (abides_consult (fun _ => trivial) fun _ =>
        abides_consult (fun _ => trivial) fun _ => .ret) fun go => ?_
      split
      · exact abides_tick (fun _ => abides_consult (fun _ => trivial) fun _ => .ret)
          fun _ => abides_consult (fun _ => trivial) fun _ => .ret
      · exact .ret

theorem abides_scheduleFireLoop {since : Option DateTime} :
    (scheduleFireLoop lib E schedule since).Abides (ticking X) := by
  unfold scheduleFireLoop
  split
  · exact .ret
  · exact .iter abides_fireRound fun _ => .ret

theorem abides_catchUp : (catchUp lib E schedule).Abides (ticking X) := by
  unfold catchUp
  split
  · split
    · refine abides_consult (fun _ => trivial) fun till => ?_
      split
      · exact abides_backfillTicks.bind fun _ => .ret
      · exact .ret
    · exact .ret
  · exact .ret

theorem abides_install : ∀ desired installed,
    (install lib E desired installed).Abides (ticking X)
  | [], _ => .ret
  | schedule :: desired, installed => by
    unfold install
    split
    · exact abides_install desired installed
    · exact abides_catchUp.bind fun _ => abides_consult (fun _ => trivial) fun _ =>
        abides_install desired _

theorem abides_scheduleReconciler {macroSchedules : List WorkflowSchedule} :
    (scheduleReconciler lib E macroSchedules).Abides (ticking X) := by
  refine .iter (fun installed => abides_consult (fun _ => trivial) fun stopped => ?_) fun _ => .ret
  split
  · exact .ret
  · refine abides_consult (fun _ => trivial) fun listed => ?_
    split
    · exact abides_consult (fun _ => trivial) fun _ => .ret
    · exact (abides_install _ _).bind fun _ => abides_consult (fun _ => trivial) fun _ => .ret

omit [Serde DateTime] in
theorem abides_withSchedule {α : Type} {name : String}
    {f : WorkflowSchedule → ScheduleProc (Except Error α)} (hf : ∀ s, (f s).Abides (ticking X)) :
    (withSchedule name f).Abides (ticking X) := by
  refine .bind (abides_consult (fun _ => trivial) fun listed => ?_) fun found => ?_
  · split
    · exact .ret
    · exact .ret
  · split
    · exact .ret
    · exact .ret
    · exact hf _

omit [Serde DateTime] in
theorem calls_clientEnqueue {S : Eff → Prop} {appVersion uuid queue name : String} {I : Type}
    [Serde I] {input : I} {opts : WorkflowOptions} (hnow : S .utcNow)
    (hinsert : ∀ status, S (.provider (.insertWorkflowStatus status)))
    (hdedup : ∀ queue dedup, S (.provider (.getDeduplicatedWorkflow queue dedup))) :
    (clientEnqueue appVersion uuid I queue name input opts).Calls S := by
  have hround {row : WorkflowStatus} : (insertOrHolder row queue opts).Calls S := by
    refine calls_bind (calls_attempt (calls_ask (hinsert _))) fun r => ?_
    split
    · exact calls_pure
    · split
      · refine calls_bind (calls_ask (hdedup _ _)) fun existing => ?_
        split
        · exact calls_pure
        · exact calls_pure
      · exact calls_fail
  unfold clientEnqueue
  split
  · exact calls_fail
  split
  · exact calls_fail
  split
  · exact calls_fail
  split
  · exact calls_fail
  exact calls_bind (calls_perform hnow) fun _ => calls_bind calls_toValue fun _ =>
    calls_bind (calls_perform hnow) fun _ => calls_loop (fun _ => hround) _

theorem modest_clientEnqueue {appVersion queue name : String} {opts : WorkflowOptions} :
    (clientEnqueue appVersion "" ScheduledInput queue name input opts).Calls Eff.Modest :=
  calls_clientEnqueue trivial (fun _ => trivial) fun _ _ => trivial

theorem modest_enqueueTicks {appVersion name : String} {schedule : WorkflowSchedule} :
    ∀ instants, (enqueueTicks appVersion name schedule instants).Calls Eff.Modest
  | [] => calls_pure
  | _ :: instants => calls_bind modest_clientEnqueue fun _ =>
    calls_bind (modest_enqueueTicks instants) fun _ => calls_pure

theorem modest_start {workflowName name : String} {queue : Option String} {now : DateTime} :
    (start E "" ScheduledInput workflowName input
      { workflowId := some (triggerId name now), queue := queue }).Calls Eff.Modest := by
  refine calls_start_of trivial (fun _ he => he.modest) (fun _ _ => trivial) fun _ _ _ _ => ?_
  unfold startId
  dsimp only
  split
  · next hempty => exact ⟨name, now, hempty.symm⟩
  · exact ⟨name, now, rfl⟩

/-- **Every task keeps the promise.** -/
theorem abides_run (task : Scheduling) : (task.run lib).Abides (ticking X) := by
  cases task with
  | reconciler => exact abides_scheduleReconciler
  | fireLoop => exact abides_scheduleFireLoop
  | backfillTicks => exact abides_backfillTicks.bind fun _ => .ret
  | engineTrigger =>
    refine .bind (abides_withSchedule fun schedule => ?_) fun _ => .ret
    exact abides_consult (fun _ => trivial) fun _ => abides_modest modest_start
  | engineBackfill => exact .bind (abides_withSchedule fun _ => abides_backfillTicks) fun _ => .ret
  | clientTrigger =>
    refine .bind (abides_withSchedule fun schedule => ?_) fun _ => .ret
    exact abides_consult (fun _ => trivial) fun _ => abides_modest modest_clientEnqueue
  | clientBackfill =>
    refine .bind (abides_withSchedule fun schedule => ?_) fun _ => .ret
    exact abides_modest (calls_bind calls_ofExcept fun _ => modest_enqueueTicks _)

end

/-! ## The system -/

/-- The rest of the system: it may do anything to the schedules and the clock, and any operation on
the store that removes no workflow. -/
def Surroundings (X : TextCodec) (w w' : Board Inner) : Prop :=
  w'.world.store = w.world.store ∨ ∃ op now uuid, ¬Operation.Removes op ∧
    w'.world.store = op.run X now uuid w.world.store

/-- A task with its own calls. -/
abbrev TickTask := Tracked ScheduleEff ScheduleAnswer (Board Inner) Unit

/-- A board with everything that was called. -/
abbrev TickBoard := Traced ScheduleEff ScheduleAnswer (Board Inner)

/-- **Any number of tasks** of engines and clients, with their records. -/
def scheduling (X : TextCodec) (lib : CronLib) [Serde DateTime] :
    Threads TickTask TickBoard (Option (ScheduleEvent TickBoard)) :=
  .tracked (Board.handle (provider X)) (begins lib)
    (fun _ p => ∃ task : Scheduling, p = task.run lib) (Surroundings X)

section

variable {X : TextCodec} {id : String} {c : ScheduleEff} {w w' : Board Inner} {r : ScheduleAnswer c}

theorem surroundings_of_handle {x : TickView} (hr : Board.handle (provider X) c w r w')
    (hc : Promise c x) : Surroundings X w w' := by
  cases c with
  | base e =>
    cases e with
    | provider c =>
      rcases hr.2 with hcall | ⟨-, hsame⟩
      · obtain ⟨uuid, -, hw'⟩ := Provider.handle_provider.mp hcall
        refine .inr ⟨.call c, w.world.clock, uuid, ?_, congrArg World.store hw'⟩
        cases c with
        | deleteWorkflows => exact hc.elim
        | _ => exact not_false
      · exact .inl (congrArg World.store hsame)
    | utcNow | produceNow | race | elapsed => exact .inl (congrArg World.store hr.2.2)
    | sql => exact hr.2.1.elim
    | _ => exact .inl (congrArg World.store hr.2)
  | utcNow | listSchedules => exact .inl (congrArg (fun b => b.world.store) hr.2)
  | setScheduleLastFired => exact .inl (congrArg World.store hr.1)
  | startLoop => exact .inl (congrArg (fun b => b.world.store) hr)

theorem Surroundings.wellKeyed (h : Surroundings X w w') (hw : WellKeyed w.world.store) :
    WellKeyed w'.world.store := by
  rcases h with heq | ⟨op, now, uuid, -, heq⟩
  · rwa [heq]
  · rw [heq]
    exact wellKeyed_run hw op uuid

theorem Surroundings.isSome (h : Surroundings X w w') (hw : WellKeyed w.world.store)
    (hrow : (w.world.store.workflows.lookup id).isSome) :
    (w'.world.store.workflows.lookup id).isSome := by
  rcases h with heq | ⟨op, now, uuid, hop, heq⟩
  · rwa [heq]
  · rw [heq]
    exact (touches hw op uuid).isSome hop hrow

/-- **The insert is the arbiter**: the row it creates was not there. -/
theorem rows_of_created (hr : Board.handle (provider X) c w r w') (h : (created id c r).isSome) :
    w.world.store.workflows.lookup id = none ∧
      (w'.world.store.workflows.lookup id).isSome := by
  obtain ⟨status, canonical, heq, rfl⟩ := insert_of_created h
  cases heq
  rcases hr.2 with hcall | ⟨⟨e, he⟩, -⟩
  · obtain ⟨uuid, hanswer, hw'⟩ := Provider.handle_provider.mp hcall
    rw [congrArg World.store hw']
    dsimp only [provider, Memory.call] at hanswer ⊢
    rcases insertWorkflowStatus_cases status w.world.store with ⟨_, _, _, _, _, heq⟩ | ⟨-, heq⟩
    · rw [heq] at hanswer
      cases hanswer
    · rw [heq, insertWorkflowStatus.insert] at hanswer ⊢
      split at hanswer
      · cases hanswer
      · next hnone =>
          refine ⟨hnone, ?_⟩
          rw [AList.lookup_insert]
          rfl
  · cases he

end

/-! ## Counting -/

/-- **The tally of a tick**: its row was created at most once, and then it is there; it was started,
or is about to be, at most as often as it was created without a queue. -/
structure Tally (id : String) (c : Pool TickTask TickBoard) : Prop where
  keyed : WellKeyed c.world.world.world.store
  rows : c.world.past.countP (creates id) ≤
    if (c.world.world.world.store.workflows.lookup id).isSome then 1 else 0
  runs : c.world.past.countP (launches id) + c.threads.countP (fun t => justCreated id t.own) ≤
    c.world.past.countP (createsDirect id)

variable {W : Type*} {e : ScheduleEvent W}

section

variable {X : TextCodec} {id : String}

/-- A run of a tick is started by the task that has just created it. -/
theorem justCreated_of_launched (hid : ∀ name now, id ≠ triggerId name now) {c : ScheduleEff}
    {x : TickView} (hc : Promise c x) (h : spawnsOf id c = true) : justCreated id x.2 = true := by
  cases c with
  | base e =>
    cases e with
    | spawn id' =>
      obtain rfl : id' = id := of_decide_eq_true h
      rcases hc with ⟨name, now, heq⟩ | hc
      · exact absurd heq (hid name now)
      · exact hc
    | _ => cases h
  | _ => cases h

theorem createsDirect_creates (h : createsDirect id e = true) : creates id e = true := by
  rw [creates, of_decide_eq_true h]
  rfl

/-- A row created with a queue is one that was not created without. -/
theorem countP_createsDirect_lt {past : List (ScheduleEvent W)} (he : e ∈ past) {queue : String}
    (h : created id e.call e.answer = some (some queue)) :
    past.countP (createsDirect id) < past.countP (creates id) := by
  obtain ⟨pre, post, rfl⟩ := append_of_mem he
  have hcreates : creates id e = true := by rw [creates, h]; rfl
  have hdirect : ¬createsDirect id e = true := by simp [createsDirect, h]
  have hmono (l : List (ScheduleEvent W)) : l.countP (createsDirect id) ≤ l.countP (creates id) :=
    countP_mono_left fun _ _ => createsDirect_creates
  rw [countP_append, countP_append, countP_cons_of_neg hdirect,
    countP_cons_of_pos hcreates]
  exact Nat.add_lt_add_of_le_of_lt (hmono pre) (Nat.lt_succ_of_le (hmono post))

theorem abides_begins {lib : CronLib} [Serde DateTime] (e : ScheduleEvent W) :
    ∀ p ∈ begins lib e, p.Abides (ticking X) := by
  obtain ⟨c, w, r, w'⟩ := e
  cases c with
  | startLoop E schedule since =>
    rintro p (_ | ⟨_, ⟨⟩⟩)
    exact abides_scheduleFireLoop
  | _ => exact nofun

theorem rows_moved {n : Nat} {w w' : Board Inner} (h : Surroundings X w w')
    (hw : WellKeyed w.world.store)
    (hn : n ≤ if (w.world.store.workflows.lookup id).isSome then 1 else 0) :
    n ≤ if (w'.world.store.workflows.lookup id).isSome then 1 else 0 := by
  split at hn
  · next hrow => rwa [if_pos (h.isSome hw hrow)]
  · exact hn.trans (Nat.zero_le _)

variable {lib : CronLib} [Serde DateTime]

/-- **The tally is kept.** -/
theorem tally_step (hid : ∀ name now, id ≠ triggerId name now) {a b : Pool TickTask TickBoard}
    {e : Pool.Happens _ _} (hs : Pool.Step (scheduling X lib) a e b)
    (hpromise : ∀ t ev, e = .ran t (some ev) → Promise ev.call (a.world, t.own)) (h : Tally id a) :
    Tally id b := by
  have hruns := h.runs
  cases hs with
  | @run pre post new t t' w w' l hstep =>
    obtain ⟨p, own⟩ := t
    obtain ⟨p', own'⟩ := t'
    obtain ⟨hproc, hown, rfl⟩ := hstep
    -- A task that has come in has created nothing.
    have hnew (ps : List (ScheduleProc Unit)) : (ps.map fun p => (⟨p, []⟩ : TickTask)).countP
        (fun t => justCreated id t.own) = 0 := by
      simp [countP_map, Function.comp_def, justCreated]
    simp only [countP_append, countP_cons] at hruns
    cases hproc with
    | @call c k _ _ r hr =>
      obtain rfl : own' = ⟨c, w, r, w'⟩ :: own := hown
      have hc : Promise c (w, own) := hpromise _ _ rfl
      have hmove : Surroundings X w.world w'.world := surroundings_of_handle hr.1 hc
      refine ⟨hmove.wellKeyed h.keyed, ?_, ?_⟩
      · dsimp only
        rw [hr.2, countP_cons]
        split
        · next hcreates =>
            obtain ⟨hnone, hsome⟩ := rows_of_created hr.1 hcreates
            have hzero := h.rows
            rw [hnone] at hzero
            rw [if_pos hsome]
            exact Nat.succ_le_succ hzero
        · exact rows_moved hmove h.keyed h.rows
      · dsimp only
        obtain ⟨ev, hev⟩ : ∃ ev : ScheduleEvent (Board Inner),
            ev = ⟨c, w.world, r, w'.world⟩ := ⟨_, rfl⟩
        rw [hr.2, ← hev]
        simp only [countP_append, countP_cons, hnew]
        have hlast : justCreated id ((⟨c, w, r, w'⟩ : ScheduleEvent TickBoard) :: own) =
          createsDirect id ev := by rw [hev]; rfl
        have hspent : (if launches id ev = true then 1 else 0) ≤
            if justCreated id own = true then 1 else 0 := by
          split
          · next hlaunch =>
              rw [hev] at hlaunch
              rw [if_pos (justCreated_of_launched hid hc hlaunch)]
          · exact Nat.zero_le _
        rw [hlast]
        omega
    | unfold =>
      obtain rfl : own' = own := hown
      refine ⟨h.keyed, h.rows, ?_⟩
      simp only [countP_append, countP_cons, hnew]
      exact hruns
  | start hstart =>
    obtain ⟨-, hown⟩ := hstart
    refine ⟨h.keyed, h.rows, ?_⟩
    rw [countP_cons_of_neg (by simp [hown, justCreated])]
    exact hruns
  | lose =>
    refine ⟨h.keyed, h.rows, ?_⟩
    simp only [countP_append, countP_cons] at hruns ⊢
    omega
  | env hmove =>
    refine ⟨hmove.1.wellKeyed h.keyed, ?_, ?_⟩
    · dsimp only
      rw [hmove.2]
      exact rows_moved hmove.1 h.keyed h.rows
    · dsimp only
      rw [hmove.2]
      exact hruns

/-- **At most one run per tick.**  Ids tell ticks apart, from one another and from triggers; the row
of a tick is created at most once; its run is started at most once, and not at all if the row was
created with a queue. -/
theorem at_most_one_run_per_tick {g : Inner} (hg : WellKeyed g) {clock : DateTime}
    {schedules : Schedules} {c : Pool TickTask TickBoard}
    (hrun : Pool.Run (scheduling X lib) (fun _ _ _ => True) ⟨⟨⟨⟨g, clock⟩, schedules⟩, []⟩, []⟩ c)
    (name : String) (instant : DateTime) :
    (∀ name' instant', instant.Plain → instant'.Plain →
      tickId name' instant' = tickId name instant → name' = name ∧ instant' = instant) ∧
    (∀ name' now, tickId name instant ≠ triggerId name' now) ∧
    c.world.past.countP (creates (tickId name instant)) ≤ 1 ∧
    c.world.past.countP (launches (tickId name instant)) ≤ 1 ∧
    ∀ e ∈ c.world.past, ∀ queue, created (tickId name instant) e.call e.answer = some (some queue) →
      c.world.past.countP (launches (tickId name instant)) = 0 := by
  have hid : ∀ name' now, tickId name instant ≠ triggerId name' now := fun name' now =>
    tickId_ne_triggerId name name' instant now
  have hpromises : Pool.Run (scheduling X lib) (fun a e _ => True ∧
      ∀ t ev, e = .ran t (some ev) → Promise ev.call (a.world, t.own))
      ⟨⟨⟨⟨g, clock⟩, schedules⟩, []⟩, []⟩ c := by
    refine hrun.abiding ?_ (fun e => abides_begins e) rfl
    rintro w p ⟨task, rfl⟩
    exact abides_run task
  have htally : Tally (tickId name instant) c := by
    refine Pool.Run.pool (fun a e b hs hok ha => tally_step hid hs hok.2 ha) hpromises ⟨hg, ?_, ?_⟩
    · exact Nat.zero_le _
    · exact Nat.le_refl _
  have hrows : c.world.past.countP (creates (tickId name instant)) ≤ 1 := by
    refine htally.rows.trans ?_
    split
    · exact Nat.le_refl 1
    · exact Nat.zero_le 1
  have hruns : c.world.past.countP (launches (tickId name instant)) ≤
      c.world.past.countP (createsDirect (tickId name instant)) :=
    (Nat.le_add_right _ _).trans htally.runs
  have hdirect : c.world.past.countP (createsDirect (tickId name instant)) ≤
      c.world.past.countP (creates (tickId name instant)) :=
    countP_mono_left fun _ _ => createsDirect_creates
  refine ⟨fun name' instant' h h' heq => tickId_injective h' h heq, hid, hrows,
    hruns.trans (hdirect.trans hrows), fun e he queue hqueue => ?_⟩
  have hlt := countP_createsDirect_lt he hqueue
  omega

end

/-- A spec that fires at every full second. -/
def everySecond : CronLib where
  Cron := Unit
  parse _ := .ok ()
  Tz := Unit
  utc := ()
  parseTz _ := none
  nextAfter _ t := some { t with instant := ⟨(t.instant.nanos / 1000000000 + 1) * 1000000000⟩ }

/-- A schedule without a queue. -/
def beat : WorkflowSchedule where
  scheduleId := "s-1"
  scheduleName := "beat"
  workflowName := "report"
  schedule := "* * * * * *"

/-- An engine that knows the workflow of the schedule. -/
def reporting : Engine where
  registry := [("report", fun _ _ => .done (.returned (.ok .null)))]
  appVersion := "v1"

attribute [local instance] serdeNanos in
/-- Two backfills of the same second, from an empty store: one creates and starts the tick, and the
other finds it. -/
theorem at_most_one_run_per_tick_backfill : ∃ c : Pool TickTask TickBoard,
    Pool.Run (scheduling noText everySecond) (fun _ _ _ => True) ⟨⟨⟨⟨{}, ⟨0⟩⟩, ∅⟩, []⟩, []⟩ c ∧
    c.world.past.countP (launches (tickId "beat" ⟨1000000000⟩)) = 1 ∧
    c.world.past.countP (creates (tickId "beat" ⟨1000000000⟩)) ≤ 1 := by
  have hentered : Pool.Run (scheduling noText everySecond) (fun _ _ _ => True)
      ⟨⟨⟨⟨{}, ⟨0⟩⟩, ∅⟩, []⟩, []⟩ ⟨⟨⟨⟨{}, ⟨0⟩⟩, ∅⟩, []⟩, [_]⟩ :=
    (Pool.Run.refl _).enter (t := ⟨_, []⟩)
      ⟨⟨.backfillTicks reporting beat ⟨0⟩ ⟨2000000000⟩, rfl⟩, rfl⟩ trivial
  have hboth := hentered.enter (t := ⟨_, []⟩)
    ⟨⟨.backfillTicks reporting beat ⟨0⟩ ⟨2000000000⟩, rfl⟩, rfl⟩ trivial
  have hask {c : ProviderCall} {w : Board Inner} : Board.handle (provider noText)
      (.base (.provider c)) w (call c w.world.clock "" w.world.store).1
      ⟨⟨(call c w.world.clock "" w.world.store).2, w.world.clock⟩, w.schedules⟩ :=
    ⟨rfl, .inl told⟩
  have hstarted := hboth |>.actTracked 0 rfl ⟨0⟩ ⟨rfl, rfl, rfl⟩ trivial
    |>.actTracked 0 rfl ⟨0⟩ ⟨rfl, rfl, rfl⟩ trivial
    |>.actTracked 0 rfl _ hask trivial
    |>.actTracked 0 rfl () ⟨rfl, rfl⟩ trivial
  have hfound := hstarted |>.actTracked 1 rfl ⟨0⟩ ⟨rfl, rfl, rfl⟩ trivial
    |>.actTracked 1 rfl ⟨0⟩ ⟨rfl, rfl, rfl⟩ trivial
    |>.actTracked 1 rfl _ hask trivial
  refine ⟨_, hfound, by decide +kernel, ?_⟩
  exact (at_most_one_run_per_tick wellKeyed_empty hfound "beat" ⟨1000000000⟩).2.2.1

end Durare
