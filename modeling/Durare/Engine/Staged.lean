import Durare.Engine.Charges
import Durare.Machinery.Stages

/-!
# Engine/Staged — the engine with its executions visible

An execution that a sweep makes is a part of the sweep's own process.  Here the sweep, and with it
every request, is cut into stages, so that an execution in progress is a stage under its workflow's
id; beside its code a task carries the workflows it is in charge of.

* `sweep`, `toProc_sweep` — the recovery sweep in stages is the recovery sweep.
* `stagedEngine` — the engine in stages, under the requests of a process that nobody asks to
  recover, resume or delete.
* `erase_run`, `exists_run` — its runs are the runs of the engine.
-/

namespace Durare

open List

open Verb

/-! ## The sweep of a launch in stages -/

/-- What a sweep does with a row of its snapshot. -/
inductive TakeUp where
  | stop
  | skip
  | run

section

variable (E : Engine)

/-- What a sweep does before it runs a row: nothing after shutdown, and otherwise it counts the
recovery and puts a queued row back on its queue. -/
def takeUp (record : WorkflowStatus) : Verb TakeUp := do
  if ← perform .isCancelled then return .stop
  else
    let attempts ← ask (.bumpRecoveryAttempts record.id E.maxRecoveryAttempts)
    if E.maxRecoveryAttempts < attempts then return .skip
    else if record.queueName.isSome then
      let _ ← ask (.setWorkflowStatus record.id .enqueued none none)
      return .skip
    else
      match E.handler (registryKey record.name record.configName) with
      | some _ => return .run
      | none => return .skip

variable [Serde DateTime] (P : Provider)

/-- The sweep over a snapshot; each execution it makes is a stage of its own. -/
def sweep : List WorkflowStatus → CtxState → Stages Eff Answer String
  | [], _ => .done
  | record :: pending, s => .stage none (takeUp E record s) fun
      | (.ok .run, s) => match E.handler (registryKey record.name record.configName) with
        | some handler => .stage (some record.id) (runToCompletion P E.runtime handler record.id
            record.input record.deadlineMs (AuthContext.fromStatus record) s)
              fun r => sweep pending r.2
        | none => sweep pending s
      | (.ok .skip, s) => sweep pending s
      | _ => .done

/-- The sweep in stages is the sweep. -/
theorem toProc_sweep (pending : List WorkflowStatus) (s : CtxState) :
    (sweep E P pending s).toProc = (dispatchPendingWorkflows E P pending s).bind
      fun _ => .ret () := by
  induction pending generalizing s with
  | nil => rfl
  | cons record pending ih =>
    -- The ids a sweep returns are dropped.
    have hrest (s : CtxState) : (sweep E P pending s).toProc =
        ((dispatchPendingWorkflows E P pending s).bind (andThen fun recovered =>
          pure (record.id :: recovered))).bind fun _ => .ret () := by
      rw [ih, Proc.bind_assoc]
      refine congrArg (Proc.bind _) (funext fun r => ?_)
      obtain ⟨_ | _, _⟩ := r
      · rfl
      · rfl
    have hrun (x : Verb Value) : (x s).bind (fun r => (sweep E P pending r.2).toProc) =
        ((attempt x >>= fun _ => dispatchPendingWorkflows E P pending >>= fun recovered =>
          pure (record.id :: recovered)) s).bind fun _ => .ret () := by
      change _ = (((x s).bind fun r => .ret (.ok r.1, r.2)).bind (andThen fun _ =>
        dispatchPendingWorkflows E P pending >>= fun recovered =>
          pure (record.id :: recovered))).bind fun _ => .ret ()
      rw [Proc.bind_assoc, Proc.bind_assoc]
      exact congrArg (Proc.bind (x s)) (funext fun r => hrest r.2)
    refine congrArg (Proc.call Eff.isCancelled) (funext fun shutdown => ?_)
    cases shutdown with
    | true => rfl
    | false =>
      refine congrArg (Proc.call (Eff.provider (.bumpRecoveryAttempts record.id
        E.maxRecoveryAttempts))) (funext fun attempts => ?_)
      cases attempts with
      | error e => rfl
      | ok n =>
        dsimp only [andThen, Proc.bind]
        by_cases hcap : E.maxRecoveryAttempts < n
        · rw [if_pos hcap, if_pos hcap]
          exact ih s
        · rw [if_neg hcap, if_neg hcap]
          by_cases hqueue : record.queueName.isSome = true
          · rw [if_pos hqueue, if_pos hqueue]
            refine congrArg (Proc.call (Eff.provider (.setWorkflowStatus record.id .enqueued
              none none))) (funext fun r => ?_)
            cases r with
            | error e => rfl
            | ok _ => exact hrest s
          · rw [if_neg hqueue, if_neg hqueue]
            cases E.handler (registryKey record.name record.configName) with
            | none => exact ih s
            | some handler => exact hrun _

end

/-! ## The engine in stages -/

/-- A task, and the workflows it is in charge of. -/
structure Task where
  code : Stages Eff Answer String
  charge : List String

/-- How often a task has a workflow: in its charges, and as the execution it is in. -/
def Task.holds (t : Task) (id : String) : Nat :=
  t.charge.count id + if t.code.name = some id then 1 else 0

/-- How often the tasks of a pool have a workflow. -/
def heldBy (id : String) : List Task → Nat
  | [] => 0
  | t :: ts => t.holds id + heldBy id ts

theorem heldBy_append {id : String} (ts us : List Task) :
    heldBy id (ts ++ us) = heldBy id ts + heldBy id us := by
  induction ts with
  | nil => simp [heldBy]
  | cons t ts ih =>
    rw [cons_append, heldBy, heldBy, ih]
    omega

/-- The charges on entering a stage: an execution that begins has used up its own. -/
def enter (name : Option String) (charge : List String) : List String :=
  name.elim charge charge.erase

/-- One step of a task: a call settles its charges. -/
inductive Task.Step {W : Type} (handle : (e : Eff) → W → Answer e → W → Prop) :
    Task → W → Option (Proc.Event Eff Answer W) → Task → W → Prop where
  | run {name : Option String} {β : Type} {p p' : Proc Eff Answer β}
      {k : β → Stages Eff Answer String} {charge : List String} {w w' : W}
      {e : Option (Proc.Event Eff Answer W)} (h : Proc.Step handle p w e p' w') :
      Task.Step handle ⟨.stage name p k, charge⟩ w e
        ⟨.stage name p' k, e.elim charge fun ev => settle ev.call ev.answer charge⟩ w'
  | next {name : Option String} {β : Type} {b : β} {k : β → Stages Eff Answer String}
      {charge : List String} {w : W} :
      Task.Step handle ⟨.stage name (.ret b) k, charge⟩ w none ⟨k b, enter (k b).name charge⟩ w

variable {W : Type} {code : Stages Eff Answer String}
  {e : Option (Proc.Event Eff Answer W)} {w w' : W} {handle : (e : Eff) → W → Answer e → W → Prop}

variable {t t' : Task}

section

variable [Serde DateTime] (P : Provider) (E : Engine)

/-- A request in stages. -/
def Request.stages : Request → Stages Eff Answer String
  | .recoverPendingWorkflows executorIds => .stage none (listPendingWorkflows E executorIds {}) fun
      | (.ok pending, s) => sweep E P pending s
      | (.error _, _) => .done
  | req => .stage none (req.run P E) fun _ => .done

/-- What a process does when nobody calls recover or resume and nothing is deleted: starts,
cancellations, the dispatchers of its queues, and the sweep of its launch. -/
def Request.Regular : Request → Prop
  | .recoverPendingWorkflows executorIds => executorIds = [E.executorId]
  | .queueDispatchLoop queue => queue ∈ E.queues
  | .resumeWorkflowOn _ _ | .resumeWorkflowsOn _ _ | .deleteWorkflows _ _ => False
  | _ => True

/-- The execution an effect starts, as a stage under its id. -/
def startedTasks (e : Proc.Event Eff Answer (World P.State)) : List Task :=
  match e.call with
  | .spawn id key input deadlineMs auth => match E.handler key with
    | some handler =>
      [⟨.stage (some id) (runToCompletion P E.runtime handler id input deadlineMs auth {})
        fun _ => .done, []⟩]
    | none => []
  | _ => []

/-- The engine under regular requests. -/
def regularEngine : Threads (Proc Eff Answer Unit) (World P.State)
    (Option (Proc.Event Eff Answer (World P.State))) :=
  .ofProc P.handle (spawned P E) (fun _ p => ∃ req : Request, req.Regular E ∧ p = req.run P E) Tick

/-- **The engine in stages**, under regular requests. -/
def stagedEngine : Threads Task (World P.State)
    (Option (Proc.Event Eff Answer (World P.State))) where
  step t w e t' w' new := Task.Step P.handle t w e t' w' ∧ new = e.elim [] (startedTasks P E)
  start _ t := ∃ req : Request, req.Regular E ∧ t = ⟨req.stages P E, []⟩
  env := Tick

/-- Forget stages and charges. -/
def erase {W : Type} (c : Pool Task W) : Pool (Proc Eff Answer Unit) W :=
  ⟨c.world, c.threads.map fun t => t.code.toProc⟩

variable {P E}

theorem toProc_stages (req : Request) : (req.stages P E).toProc = req.run P E := by
  cases req with
  | recoverPendingWorkflows executorIds =>
    refine Eq.trans ?_ (Proc.bind_assoc (listPendingWorkflows E executorIds {}) _ _).symm
    refine congrArg (Proc.bind _) (funext fun r => ?_)
    obtain ⟨_ | pending, s⟩ := r
    · rfl
    · exact toProc_sweep E P pending s
  | _ => exact Proc.bind_ret _

theorem name_stages (req : Request) : (req.stages P E).name = none := by
  cases req with
  | _ => rfl

theorem startedTasks_toProc (e : Option (Proc.Event Eff Answer (World P.State))) :
    (e.elim [] (startedTasks P E)).map (fun t => t.code.toProc) = e.elim [] (spawned P E) := by
  cases e with
  | none => rfl
  | some ev =>
    obtain ⟨call, before, answer, after⟩ := ev
    cases call with
    | spawn id key input deadlineMs auth =>
      simp only [Option.elim, startedTasks, spawned]
      cases E.handler key with
      | some handler => rfl
      | none => rfl
    | _ => rfl

variable {c : Pool Task (World P.State)}

/-- **A run of the engine in stages is one of the engine.** -/
theorem erase_run {ok : Pool Task (World P.State) → _ → _ → Prop} {c' : Pool Task (World P.State)}
    (h : Pool.Run (stagedEngine P E) ok c c') :
    Pool.Run (regularEngine P E) (fun _ _ _ => True) (erase c) (erase c') := by
  induction h with
  | refl => exact .refl _
  | tail _ hlast ih =>
    obtain ⟨e, hs, -⟩ := hlast
    cases hs with
    | run h =>
      obtain ⟨hstep, rfl⟩ := h
      cases hstep with
      | run hp =>
        simp only [erase, map_append, map_cons, startedTasks_toProc] at ih ⊢
        exact ih.tail (.run ⟨hp.bind, rfl⟩) trivial
      | next => simpa [erase] using ih
    | start h =>
      obtain ⟨req, hreq, rfl⟩ := h
      exact ih.enter ⟨req, hreq, toProc_stages req⟩ trivial
    | lose =>
      simp only [erase, map_append, map_cons] at ih ⊢
      exact ih.tail .lose trivial
    | env h => exact ih.tail (.env h) trivial

variable {P : Provider} {E : Engine} {a : Pool Task (World P.State)} {w w' : World P.State}
  {ts : List Task} {name : Option String} {β : Type} {K : β → Stages Eff Answer String}
  {charge : List String}
  {ok : Pool Task (World P.State) →
    Pool.Happens Task (Option (Proc.Event Eff Answer (World P.State))) →
    Pool Task (World P.State) → Prop}

theorem actStaged (h : Pool.Run (stagedEngine P E) ok a ⟨w, ts⟩) (i : Nat) {e : Eff}
    {k : Answer e → Proc Eff Answer β} (ht : ts[i]? = some ⟨.stage name (.call e k) K, charge⟩)
    (r : Answer e) (hr : P.handle e w r w')
    (hok : ok ⟨w, ts⟩ (.ran ⟨.stage name (.call e k) K, charge⟩ (some ⟨e, w, r, w'⟩))
      ⟨w', ts.set i ⟨.stage name (k r) K, settle e r charge⟩ ++ startedTasks P E ⟨e, w, r, w'⟩⟩) :
    Pool.Run (stagedEngine P E) ok a ⟨w', ts.set i ⟨.stage name (k r) K, settle e r charge⟩ ++
      startedTasks P E ⟨e, w, r, w'⟩⟩ :=
  h.stepAt i ht ⟨.run (.call hr), rfl⟩ hok

theorem turnStaged (h : Pool.Run (stagedEngine P E) ok a ⟨w, ts⟩) (i : Nat) {σ γ : Type}
    {body : σ → Proc Eff Answer (σ ⊕ γ)} {s : σ} {k : γ → Proc Eff Answer β}
    (ht : ts[i]? = some ⟨.stage name (.iter body s k) K, charge⟩)
    (hok : ok ⟨w, ts⟩ (.ran ⟨.stage name (.iter body s k) K, charge⟩ none)
      ⟨w, ts.set i ⟨.stage name ((body s).bind (Proc.again body k)) K, charge⟩ ++ []⟩) :
    Pool.Run (stagedEngine P E) ok a
      ⟨w, ts.set i ⟨.stage name ((body s).bind (Proc.again body k)) K, charge⟩ ++ []⟩ :=
  h.stepAt i ht ⟨.run .unfold, rfl⟩ hok

end

/-! ## Tasks keep to their charges -/

/-- Nothing is started that is not in charge, now and in every later stage. -/
def Disciplined (code : Stages Eff Answer String) (charge : List String) : Prop :=
  code.wp charging (fun name charge => ∀ id, name = some id → id ∈ charge) enter charge

variable {charge : List String}

/-- **One step of a task keeps to its charges.** -/
theorem Task.Step.disciplined (h : Task.Step handle t w e t' w')
    (ht : Disciplined t.code t.charge) :
    (∀ ev, e = some ev → ev.call.Mild ∧ ∀ id, spent ev.call = some id → id ∈ t.charge) ∧
      Disciplined t'.code t'.charge := by
  cases h with
  | run hp =>
    cases hp with
    | call hr =>
      obtain ⟨hguar, hk⟩ := Stages.wp_run (fun _ => rfl) ht (.call rfl)
      refine ⟨?_, hk⟩
      rintro ev ⟨rfl⟩
      exact hguar _ rfl
    | unfold => exact ⟨fun ev hev => (nomatch hev), Proc.wp_unfold ht⟩
  | next => exact ⟨fun ev hev => (nomatch hev), ht.2⟩

variable {handle : (e : Eff) → W → Answer e → W → Prop}

/-- What a call of a task says: it is answered in the world, and the charges are settled. -/
theorem Task.Step.event {ev : Proc.Event Eff Answer W} (h : Task.Step handle t w (some ev) t' w') :
    ev.before = w ∧ ev.after = w' ∧ handle ev.call w ev.answer w' ∧ t'.code.name = t.code.name ∧
      t'.charge = settle ev.call ev.answer t.charge := by
  cases h with
  | run hp =>
    obtain ⟨hbefore, hafter, hr⟩ := hp.event
    exact ⟨hbefore, hafter, hr, rfl, rfl⟩

/-- A silent step leaves the world alone.  A passage from one stage to the next hands a charge to
the execution that begins. -/
theorem Task.Step.silent (h : Task.Step handle t w none t' w') (ht : Disciplined t.code t.charge) :
    w' = w ∧ ∀ id, t'.holds id ≤ t.holds id := by
  cases h with
  | run hp => exact ⟨hp.silent, fun id => le_refl _⟩
  | next => exact ⟨rfl, fun id => (count_give ht.1 id).le.trans (Nat.le_add_right _ _)⟩

section

variable {E : Engine}

/-- The charges after a row of a snapshot: those of the others, and its own if it is to be run. -/
def AfterTakeUp (record : WorkflowStatus) (ids : List String) :
    Except Error TakeUp → List String → Prop
  | .ok .run, charge => (record.id :: ids).Subperm charge
  | _, charge => ids.Subperm charge

theorem wp_takeUp_charge {record : WorkflowStatus} {ids : List String}
    {known : List (String × Option Int)} {s : CtxState} (h : (record.id :: ids).Subperm charge) :
    wp entrusting (takeUp E record) (fun r _ g => AfterTakeUp record ids r g.1) s
      (charge, known) := by
  have hids : ids.Subperm charge := (sublist_cons_self _ _).subperm.trans h
  refine wp_idle (Eff.Polls.idle .shutdown) fun shutdown => ?_
  cases shutdown with
  | true => exact hids
  | false =>
    refine wp_idle_ask ⟨trivial, trivial, rfl, fun _ => rfl, fun _ => rfl⟩ fun attempts => ?_
    cases attempts with
    | error e => exact hids
    | ok n =>
      rw [after_ok]
      split
      · exact hids
      · split
        · refine wp_ask ?_
          rintro _ rfl r ⟨_, _⟩ ⟨rfl, -⟩
          have hspent : ∀ id, spent (.provider (.setWorkflowStatus record.id .enqueued none
              none)) = some id → id ∈ charge := by
            rintro _ ⟨rfl⟩
            exact h.subset mem_cons_self
          have hleft : ids.Subperm (charge.erase record.id) := by simpa using h.erase record.id
          refine ⟨⟨⟨trivial, hspent⟩, .inl .enqueued, ?_⟩, ?_⟩
          · rintro _ _ ⟨_, _, _, heq⟩
            cases heq
          · cases r with
            | error e => exact hleft
            | ok _ => exact hleft
        · split
          · exact h
          · exact hids

variable [Serde DateTime] {X : TextCodec}

omit [Serde DateTime] in
/-- The next stage of a task that is not an execution. -/
theorem disciplined_unnamed (hname : code.name = none) (h : Disciplined code charge) :
    (∀ id, code.name = some id → id ∈ charge) ∧ Disciplined code (enter code.name charge) := by
  rw [enter, hname]
  exact ⟨nofun, h⟩

theorem name_sweep {P : Provider} (pending : List WorkflowStatus) (s : CtxState) :
    (sweep E P pending s).name = none := by
  cases pending with
  | nil => rfl
  | cons record pending => rfl

theorem disciplined_sweep {pending : List WorkflowStatus} :
    ∀ {s : CtxState} {charge : List String}, (pending.map (·.id)).Subperm charge →
      Disciplined (sweep E (Memory.provider X) pending s) charge := by
  induction pending with
  | nil => exact fun _ => trivial
  | cons record pending ih =>
    intro s charge hcharge
    refine Proc.wp_mono ?_ (wp_charging (g := (charge, [])) (wp_takeUp_charge hcharge))
    rintro ⟨_ | _ | _ | _, s'⟩ charge' ⟨_, hkept⟩
    · exact disciplined_unnamed rfl trivial
    · exact disciplined_unnamed rfl trivial
    · exact disciplined_unnamed (name_sweep pending s') (ih hkept)
    · have hids : (pending.map (·.id)).Subperm (charge'.erase record.id) := by
        simpa using List.Subperm.erase record.id hkept
      cases E.handler (registryKey record.name record.configName) with
      | none =>
        refine disciplined_unnamed (name_sweep pending s') (ih ?_)
        exact (sublist_cons_self _ _).subperm.trans hkept
      | some handler =>
        refine ⟨?_, Proc.wp_mono ?_ (wp_frame
          (wp_charging (g := ([], [])) wp_runToCompletion_charge))⟩
        · rintro _ ⟨rfl⟩
          exact hkept.subset mem_cons_self
        · rintro r _ ⟨own, -, rfl⟩
          refine disciplined_unnamed (name_sweep pending r.2) (ih ?_)
          exact hids.trans (sublist_append_right _ _).subperm

theorem disciplined_request {req : Request} (h : req.Regular E) :
    Disciplined (req.stages (Memory.provider X) E) [] := by
  have hsingle {α : Type} {x : Verb α} (hx : Balanced x) :
      Disciplined (.stage none x.task fun _ => .done) [] :=
    Stages.wp_single nofun (Proc.wp_bind (Proc.wp_mono (fun _ _ _ => trivial)
      (wp_charging (hx {} ([], [])))))
  have hask {c : ProviderCall} (hc : Eff.Idle (.provider c)) : Balanced (ask c) :=
    balanced_of_calls (calls_ask hc)
  cases req with
  | start uuid I name input opts => exact hsingle balanced_start
  | cancelWorkflow id => exact hsingle (hask ⟨trivial, trivial, rfl, fun _ => rfl, fun _ => rfl⟩)
  | cancelWorkflows ids => exact hsingle (hask ⟨trivial, trivial, rfl, fun _ => rfl, fun _ => rfl⟩)
  | queueDispatchLoop queue => exact hsingle balanced_queueDispatchLoop
  | resumeWorkflowOn | resumeWorkflowsOn | deleteWorkflows => exact h.elim
  | recoverPendingWorkflows executorIds =>
    rintro _ rfl r _ rfl
    refine ⟨⟨trivial, nofun⟩, ?_⟩
    cases r with
    | error e => exact disciplined_unnamed rfl trivial
    | ok pending =>
      refine disciplined_unnamed (name_sweep pending {}) (disciplined_sweep ?_)
      simp [settle, granted, spent, List.Subperm.refl]

theorem disciplined_started (e : Proc.Event Eff Answer (World Memory.Inner)) :
    ∀ t ∈ startedTasks (Memory.provider X) E e, Disciplined t.code t.charge := by
  intro t ht
  unfold startedTasks at ht
  split at ht
  · split at ht
    · rw [mem_singleton.mp ht]
      exact Stages.wp_single nofun (Proc.wp_mono (fun _ _ _ => trivial)
        (wp_charging (g := ([], [])) wp_runToCompletion_charge))
    · exact nomatch ht
  · exact nomatch ht

end

end Durare
