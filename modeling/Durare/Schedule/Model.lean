import Durare.Debounce.Model
import Durare.Schedule.Ids

/-!
# Schedule/Model — cron schedules, line by line

A schedule is a row with a cron spec.  A **reconciler** lists the active ones, catches up the ticks
a schedule missed if it asks for that, and starts a **fire loop** for it.  The loop waits for the
next instant of the spec, inserts the tick's row under its deterministic id, starts the run unless a
queue is to, and records the instant as the last one fired.  Engines and clients can be asked to
trigger a schedule, or to backfill it.

* `persistScheduledTick`, `launchScheduledTick`, `backfillTicks` — one tick, and the missed ones.
* `scheduleFireLoop`, `scheduleReconciler` — the two loops.
* `triggerSchedule`, `backfillSchedule` — the requests.
* `ScheduleEff` — what they ask beyond the effects of an execution.

`CronLib` is what the crates `cron` and `chrono_tz` compute.  A stop flag and the shutdown token are
both asked for by `isCancelled`; setting the flag is what makes the answer true, which is not
tracked.
-/

namespace Durare

open Verb Debounce

/-! ## Schedules -/

/-- An instant read in a time zone, `chrono::DateTime<Z>`; `with_timezone` keeps the instant. -/
structure Zoned (Z : Type) where
  instant : DateTime
  zone : Z

/-- Parsing a cron spec and the name of a time zone, and `cron.after(&t).next()`. -/
structure CronLib where
  Cron : Type
  parse : String → Except String Cron
  Tz : Type
  utc : Tz
  parseTz : String → Option Tz
  nextAfter : Cron → Zoned Tz → Option (Zoned Tz)

/-- The next instant strictly after `after`, by the clock of the zone; there is none in a zone that
does not exist. -/
def CronLib.nextCronInstant (lib : CronLib) (cron : lib.Cron) (tz : Option String)
    (after : DateTime) : Option DateTime :=
  match tz with
  | some name => (lib.parseTz name).bind fun zone =>
      (lib.nextAfter cron ⟨after, zone⟩).map (·.instant)
  | none => (lib.nextAfter cron ⟨after, lib.utc⟩).map (·.instant)

inductive ScheduleStatus where
  | active
  | paused
  deriving DecidableEq, Repr

structure WorkflowSchedule where
  scheduleId : String
  scheduleName : String
  workflowName : String
  schedule : String
  status : ScheduleStatus := .active
  context : Option Value := none
  lastFiredAt : Option DateTime := none
  automaticBackfill : Bool := false
  cronTimezone : Option String := none
  queueName : Option String := none

structure ScheduleFilter where
  statuses : List ScheduleStatus := []
  workflowNames : List String := []
  namePrefixes : List String := []

/-- The input of a scheduled run. -/
structure ScheduledInput where
  scheduledTime : DateTime
  context : Option Value

/-- An absent context is not written. -/
instance [Serde DateTime] : Serde ScheduledInput where
  toValue i := do
    let time ← Serde.toValue i.scheduledTime
    return .object (("scheduled_time", time) :: (i.context.map fun c => ("context", c)).toList)
  fromValue
    | .object fields => do
        let time ← Serde.required DateTime fields "scheduled_time"
        let context ← Serde.optional (Option Value) none fields "context"
        return ⟨time, context⟩
    | v => .error (Serde.invalidType (Serde.unexpected v) "struct ScheduledInput")

namespace WorkflowSchedule

def tickInput (schedule : WorkflowSchedule) (instant : DateTime) : ScheduledInput :=
  ⟨instant, schedule.context⟩

/-- The schedule passes the filter. -/
def passes (filter : ScheduleFilter) (s : WorkflowSchedule) : Bool :=
  (filter.statuses.isEmpty || filter.statuses.contains s.status) &&
    (filter.workflowNames.isEmpty || filter.workflowNames.contains s.workflowName) &&
    (filter.namePrefixes.isEmpty || filter.namePrefixes.any fun p => s.scheduleName.startsWith p)

end WorkflowSchedule

/-- The schedules in a store, by name. -/
abbrev Schedules := Table String WorkflowSchedule

namespace Schedules

def listSchedules (schedules : Schedules) (filter : ScheduleFilter) : List WorkflowSchedule :=
  (schedules.values.filter (·.passes filter)).mergeSort fun a b => a.scheduleName ≤ b.scheduleName

def setScheduleLastFired (schedules : Schedules) (name : String) (atMs : Int) : Schedules :=
  schedules.modify name fun s => { s with lastFiredAt := DateTime.fromTimestampMillis atMs }

end Schedules

/-! ## Effects -/

/-- What a clock reading is for.  A fire loop that arms itself says up to where it takes the
instants to be dealt with, `since`: the last one it fired, or where the catching-up ended.  The
code does not keep that instant; it is here to be spoken about. -/
inductive ClockUse where
  | backfillEnd (schedule : WorkflowSchedule) (last : DateTime)
  | arm (schedule : WorkflowSchedule) (since : Option DateTime)

/-- One interaction of a scheduling task with the outside. -/
inductive ScheduleEff : Type 1 where
  | base (e : Eff)
  | utcNow (use : ClockUse)
  | listSchedules (filter : ScheduleFilter)
  | setScheduleLastFired (name : String) (atMs : Int)
  /-- `tokio::spawn(schedule_fire_loop(..))` -/
  | startLoop (E : Engine) (schedule : WorkflowSchedule) (since : Option DateTime)

@[reducible] def ScheduleAnswer : ScheduleEff → Type
  | .base e => Answer e
  | .utcNow _ => DateTime
  | .listSchedules _ => Except Error (List WorkflowSchedule)
  | .setScheduleLastFired _ _ => Except Error Unit
  | .startLoop _ _ _ => Unit

/-- A scheduling task. -/
abbrev ScheduleProc := Proc ScheduleEff ScheduleAnswer

/-- A call of a scheduling task. -/
abbrev ScheduleEvent (W : Type*) := Proc.Event ScheduleEff ScheduleAnswer W

/-- One interaction on its own. -/
def consult (e : ScheduleEff) : ScheduleProc (ScheduleAnswer e) := Proc.ask e

/-- A method that asks for nothing new; it takes no sequence numbers. -/
def lift {α : Type} (x : Verb α) : ScheduleProc (Except Error α) :=
  (Proc.via ScheduleEff.base (x {})).bind fun r => .ret r.1

/-- Whether the task is to stop. -/
def isStopped : ScheduleProc Bool := consult (.base .isCancelled)

section

variable (lib : CronLib) (E : Engine) [Serde DateTime]

/-! ## Ticks -/

def parseCron (spec : String) : Except Error lib.Cron :=
  (lib.parse spec).mapError fun e => .app ("invalid cron schedule `" ++ spec ++ "`: " ++ e)

/-- The loop of `cron_ticks_between`; `fuel` bounds its rounds. -/
def cronTicks (cron : lib.Cron) (tz : Option String) (till : DateTime) :
    Nat → DateTime → List DateTime
  | 0, _ => []
  | fuel + 1, cursor => match lib.nextCronInstant cron tz cursor with
    | none => []
    | some next => if till ≤ next then [] else next :: cronTicks cron tz till fuel next

/-- The instants strictly between `start` and `till`.  Each is later than the one before, so there
are at most as many as nanoseconds. -/
def cronTicksBetween (cron : lib.Cron) (tz : Option String) (start till : DateTime) :
    List DateTime :=
  cronTicks lib cron tz till (till.nanos - start.nanos).toNat start

/-- Insert the row of one tick; returns the row, whether it is queued, whether this call created it,
and its id. -/
def persistScheduledTick (schedule : WorkflowSchedule) (instant : DateTime) :
    Verb (WorkflowStatus × Bool × Bool × String) := do
  let id := tickId schedule.scheduleName instant
  let opts : WorkflowOptions := { workflowId := some id, queue := schedule.queueName }
  let input ← toValue (schedule.tickInput instant)
  let (canonical, queued, created) ← insertRun E.runtime id schedule.workflowName input opts none {}
  return (canonical, queued, created, id)

/-- Run a tick here if this call created it, it is not queued and not over. -/
def launchScheduledTick (schedule : WorkflowSchedule) (canonical : WorkflowStatus)
    (queued created : Bool) (id : String) : Verb Unit :=
  if queued || !created || canonical.status.isTerminal then return ()
  else
    match E.handler schedule.workflowName with
    | some _ => perform (.spawn id schedule.workflowName canonical.input canonical.deadlineMs {})
    | none => return ()

/-- The ticks at the given instants, one after the other. -/
def fireTicks (schedule : WorkflowSchedule) : List DateTime → Verb (List String)
  | [] => return []
  | instant :: instants => do
      let (canonical, queued, created, id) ← persistScheduledTick E schedule instant
      launchScheduledTick E schedule canonical queued created id
      let ids ← fireTicks schedule instants
      return id :: ids

def backfillTicks (schedule : WorkflowSchedule) (start till : DateTime) : Verb (List String) := do
  let cron ← ofExcept (parseCron lib schedule.schedule)
  fireTicks E schedule (cronTicksBetween lib cron schedule.cronTimezone start till)

/-! ## The fire loop -/

/-- The wait for an instant; returns whether to go on. -/
def sleepUntilOrStop (wait : Duration) : ScheduleProc Bool := do
  consult (.base (.sleep wait))
  let stopped ← isStopped
  return !stopped

/-- One round of a fire loop. -/
def fireRound (schedule : WorkflowSchedule) (cron : lib.Cron) (since : Option DateTime) :
    ScheduleProc (Option DateTime ⊕ Unit) := do
  if ← isStopped then return .inr ()
  else
    let now ← consult (.utcNow (.arm schedule since))
    match lib.nextCronInstant cron schedule.cronTimezone now with
    | none => return .inr ()
    | some next =>
      let now ← consult (.base .utcNow)
      if ← sleepUntilOrStop (next.remaining now) then
        match ← lift (persistScheduledTick E schedule next) with
        | .ok (canonical, queued, created, id) =>
          let _ ← lift (launchScheduledTick E schedule canonical queued created id)
        | .error _ => pure ()
        -- The instant is recorded as fired also if its row could not be inserted.
        let _ ← consult (.setScheduleLastFired schedule.scheduleName next.timestampMillis)
        return .inl (some next)
      else return .inr ()

def scheduleFireLoop (schedule : WorkflowSchedule) (since : Option DateTime) : ScheduleProc Unit :=
  match parseCron lib schedule.schedule with
  | .error _ => .ret ()
  | .ok cron => .iter (fireRound lib E schedule cron) since .ret

/-! ## The reconciler -/

/-- How long a reconciler waits between two passes. -/
def SCHEDULE_RECONCILE_INTERVAL : Duration := ⟨500000000⟩

/-- Catch up the ticks of a schedule that is about to be installed; returns up to where its instants
are taken to be dealt with. -/
def catchUp (schedule : WorkflowSchedule) : ScheduleProc (Option DateTime) := do
  if schedule.automaticBackfill then
    match schedule.lastFiredAt with
    | some last =>
      let start : DateTime := ⟨last.nanos + 1000000000⟩
      let till ← consult (.utcNow (.backfillEnd schedule last))
      if start < till then
        -- An error is logged, and the loop is started all the same.
        let _ ← lift (backfillTicks lib E schedule start till)
      return some till
    | none => return none
  else return none

/-- Install the desired schedules that are not installed; the list is of names and ids. -/
def install : List WorkflowSchedule → List (String × String) →
    ScheduleProc (List (String × String))
  | [], installed => return installed
  | schedule :: desired, installed =>
    if installed.any (·.1 = schedule.scheduleName) then install desired installed
    else do
      let since ← catchUp lib E schedule
      consult (.startLoop E schedule since)
      install desired (installed ++ [(schedule.scheduleName, schedule.scheduleId)])

/-- One pass of the reconciler. -/
def reconcile (macroSchedules : List WorkflowSchedule) (installed : List (String × String)) :
    ScheduleProc (List (String × String) ⊕ Unit) := do
  if ← isStopped then return .inr ()
  else
    match ← consult (.listSchedules { statuses := [.active] }) with
    | .error _ =>
      consult (.base (.sleep SCHEDULE_RECONCILE_INTERVAL))
      return .inl installed
    | .ok persisted =>
      -- A persisted schedule shadows a macro of the same name.
      let extra := macroSchedules.filter fun m =>
        !persisted.any fun s => s.scheduleName = m.scheduleName
      let desired := persisted ++ extra
      -- A loop whose schedule is gone, paused or recreated is told to stop.
      let kept := installed.filter fun entry =>
        desired.any fun s => s.scheduleName = entry.1 && s.scheduleId = entry.2
      let installed ← install lib E desired kept
      consult (.base (.sleep SCHEDULE_RECONCILE_INTERVAL))
      return .inl installed

def scheduleReconciler (macroSchedules : List WorkflowSchedule) : ScheduleProc Unit :=
  .iter (reconcile lib E macroSchedules) [] .ret

/-! ## Requests -/

/-- `get_schedule`. -/
def getSchedule (name : String) : ScheduleProc (Except Error (Option WorkflowSchedule)) := do
  match ← consult (.listSchedules { namePrefixes := [name] }) with
  | .error e => return .error e
  | .ok schedules => return .ok (schedules.find? fun s => s.scheduleName = name)

/-- The schedule a client's call is about, or an error. -/
def withSchedule {α : Type} (name : String)
    (f : WorkflowSchedule → ScheduleProc (Except Error α)) : ScheduleProc (Except Error α) := do
  match ← getSchedule name with
  | .error e => return .error e
  | .ok none => return .error (.app ("schedule not found: " ++ name))
  | .ok (some schedule) => f schedule

/-- `trigger_schedule` of an engine. -/
def Engine.triggerSchedule (name : String) : ScheduleProc (Except Error String) :=
  withSchedule name fun schedule => do
    let now ← consult (.base .utcNow)
    lift (start E "" ScheduledInput schedule.workflowName (schedule.tickInput now)
      { workflowId := some (triggerId name now), queue := schedule.queueName })

/-- `backfill_schedule` of an engine. -/
def Engine.backfillSchedule (name : String) (start till : DateTime) :
    ScheduleProc (Except Error (List String)) :=
  withSchedule name fun schedule => lift (backfillTicks lib E schedule start till)

/-- `trigger_schedule` of a client. -/
def triggerSchedule (appVersion name : String) : ScheduleProc (Except Error String) :=
  withSchedule name fun schedule => do
    let now ← consult (.base .utcNow)
    lift (clientEnqueue appVersion "" ScheduledInput (schedule.queueName.getD INTERNAL_QUEUE)
      schedule.workflowName (schedule.tickInput now) { workflowId := some (triggerId name now) })

/-- The ticks at the given instants, enqueued one after the other. -/
def enqueueTicks (appVersion name : String) (schedule : WorkflowSchedule) :
    List DateTime → Verb (List String)
  | [] => return []
  | instant :: instants => do
      let id := tickId name instant
      let _ ← clientEnqueue appVersion "" ScheduledInput (schedule.queueName.getD INTERNAL_QUEUE)
        schedule.workflowName (schedule.tickInput instant) { workflowId := some id }
      let ids ← enqueueTicks appVersion name schedule instants
      return id :: ids

/-- `backfill_schedule` of a client. -/
def backfillSchedule (appVersion name : String) (start till : DateTime) :
    ScheduleProc (Except Error (List String)) :=
  withSchedule name fun schedule => lift do
    let cron ← ofExcept (parseCron lib schedule.schedule)
    enqueueTicks appVersion name schedule
      (cronTicksBetween lib cron schedule.cronTimezone start till)

end

/-! ## The system -/

/-- A world with schedules in it. -/
structure Board (σ : Type) where
  world : World σ
  schedules : Schedules

/-- How a board answers.  A call of the backend may fail for reasons of its own, and then does
nothing. -/
def Board.handle (P : Provider) :
    (e : ScheduleEff) → Board P.State → ScheduleAnswer e → Board P.State → Prop
  | .base (.provider c), w, r, w' => w'.schedules = w.schedules ∧
      (P.handle (.provider c) w.world r w'.world ∨ (∃ e, r = .error e) ∧ w'.world = w.world)
  | .base e, w, r, w' => w'.schedules = w.schedules ∧ P.handle e w.world r w'.world
  | .utcNow _, w, r, w' => r = w.world.clock ∧ w' = w
  | .listSchedules filter, w, r, w' =>
    (r = .ok (w.schedules.listSchedules filter) ∨ ∃ e, r = .error e) ∧ w' = w
  | .setScheduleLastFired name atMs, w, r, w' => w'.world = w.world ∧
      (r = .ok () ∧ w'.schedules = w.schedules.setScheduleLastFired name atMs ∨
        (∃ e, r = .error e) ∧ w'.schedules = w.schedules)
  | .startLoop _ _ _, w, _, w' => w' = w

/-- The tasks and requests of engines and clients that deal with schedules. -/
inductive Scheduling where
  | reconciler (E : Engine) (macroSchedules : List WorkflowSchedule)
  | fireLoop (E : Engine) (schedule : WorkflowSchedule) (since : Option DateTime)
  | backfillTicks (E : Engine) (schedule : WorkflowSchedule) (start till : DateTime)
  | engineTrigger (E : Engine) (name : String)
  | engineBackfill (E : Engine) (name : String) (start till : DateTime)
  | clientTrigger (appVersion name : String)
  | clientBackfill (appVersion name : String) (start till : DateTime)

/-- A request whose result is of no interest. -/
def discard {α : Type} (p : ScheduleProc α) : ScheduleProc Unit := p.bind fun _ => .ret ()

def Scheduling.run (lib : CronLib) [Serde DateTime] : Scheduling → ScheduleProc Unit
  | reconciler E macroSchedules => scheduleReconciler lib E macroSchedules
  | fireLoop E schedule since => scheduleFireLoop lib E schedule since
  | backfillTicks E schedule start till =>
    discard (lift (Durare.backfillTicks lib E schedule start till))
  | engineTrigger E name => discard (E.triggerSchedule name)
  | engineBackfill E name start till => discard (E.backfillSchedule lib name start till)
  | clientTrigger appVersion name => discard (triggerSchedule appVersion name)
  | clientBackfill appVersion name start till =>
    discard (backfillSchedule lib appVersion name start till)

/-- The task a call starts. -/
def begins (lib : CronLib) [Serde DateTime] {W : Type*} :
    ScheduleEvent W → List (ScheduleProc Unit)
  | ⟨.startLoop E schedule since, _, _, _⟩ => [scheduleFireLoop lib E schedule since]
  | _ => []

end Durare
