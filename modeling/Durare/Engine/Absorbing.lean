import Durare.Engine.Footprints
import Durare.Engine.RowSteps

/-!
# Engine/Absorbing — which rows stay what they are

Every step of the engine, seen from one workflow row: `sound_run` and `row_step` say that a step
leaves the row alone or touches it by one call of the engine's repertoire.

Two results are read off.  A row with an outcome keeps it, and a cancelled row stays cancelled, in
every run whose unguarded calls — the status writes, `enqueue_existing` and the recovery bump, which
ask nothing of the row they find — do not reach the row by then.  Each is followed by a run in which
such a call does: the second half of a resume is applied to a row that has moved on in between.
-/

namespace Durare.Memory

/-- The engine over the in-memory backend. -/
abbrev EnginePool := Pool (Proc Eff Answer Unit) (World Inner)

/-- What happens in one of its steps. -/
abbrev EngineEvent :=
  Pool.Happens (Proc Eff Answer Unit) (Option (Proc.Event Eff Answer (World Inner)))

/-- The row of a workflow. -/
def rowOf (c : EnginePool) (id : String) : Option WorkflowStatus :=
    c.world.store.workflows.lookup id

/-! ## Steps of the engine -/

variable {c c' : EnginePool} {id : String} {ok : EnginePool → EngineEvent → EnginePool → Prop}

section

variable [Serde DateTime] {X : TextCodec} {E : Engine}

/-- Every row stands under its id, and every thread keeps to the calls of the engine. -/
structure Sound (c : EnginePool) : Prop where
  keyed : WellKeyed c.world.store
  calls : ∀ p ∈ c.threads, p.Calls Eff.Engine

theorem sound_run (h : Pool.Run (engine (provider X) E) ok c c') (hc : Sound c) : Sound c' := by
  have hkeeps : Pool.Keeps (engine (provider X) E) ok (fun w => WellKeyed w.store)
      (fun p _ => p.Calls Eff.Engine) := by
    refine ⟨?_, ?_, ?_⟩
    · rintro _ _ ⟨req, -, rfl⟩ -
      exact calls_request req
    · rintro w w' ⟨hstore, -⟩ hg
      refine ⟨?_, fun _ h => h⟩
      rw [hstore]
      exact hg
    · rintro pre post new p p' w w' l ⟨hstep, rfl⟩ - hg hp
      obtain ⟨-, hp'⟩ := hp.step hstep
      refine ⟨?_, hp', ?_, fun _ _ h => h⟩
      · cases l with
        | none => exact hstep.silent ▸ hg
        | some ev =>
          obtain ⟨rfl, -⟩ | ⟨c, uuid, -, rfl⟩ := handle_cases hstep.event.2.2
          · exact hg
          · exact wellKeyed_call hg c uuid
      · cases l with
        | none => exact fun _ h => nomatch h
        | some ev => exact calls_spawned ev
  obtain ⟨hkeyed, hcalls⟩ := h.invariant hkeeps hc.keyed hc.calls
  exact ⟨hkeyed, hcalls⟩

/-- **A step touches a row by one call of the engine, or leaves it alone.** -/
theorem row_step {e : EngineEvent} (hc : Sound c) (hs : Pool.Step (engine (provider X) E) c e c')
    (id : String) :
    rowOf c' id = rowOf c id ∨ ∃ p ev call, e = .ran p (some ev) ∧ ev.call = .provider call ∧
      (Eff.provider call).Engine ∧ Touch c.world.clock id call (rowOf c id) (rowOf c' id) := by
  cases hs with
  | start h => exact .inl rfl
  | lose => exact .inl rfl
  | env h =>
    refine .inl ?_
    unfold rowOf
    rw [h.1]
  | @run pre post _ p p' w w' l h =>
    cases l with
    | none =>
      obtain rfl := h.1.silent
      exact .inl rfl
    | some ev =>
      obtain ⟨hcall, -⟩ := (hc.calls p (by simp)).step h.1
      obtain ⟨rfl, -⟩ | ⟨call, uuid, heq, rfl⟩ := handle_cases h.1.event.2.2
      · exact .inl rfl
      · refine .inr ⟨p, ev, call, rfl, heq, heq ▸ hcall ev rfl, ?_⟩
        exact touch hc.keyed call uuid

/-- An invariant of one row: it holds along a run if no touch of an admitted step breaks it. -/
theorem row_run {R : Option WorkflowStatus → Prop}
    (hR : ∀ a p ev call b x y, ok a (.ran p (some ev)) b → ev.call = .provider call →
      (Eff.provider call).Engine → rowOf a id = x → rowOf b id = y →
      Touch a.world.clock id call x y → R x → R y)
    (h : Pool.Run (engine (provider X) E) ok c c') (hc : Sound c) (hrow : R (rowOf c id)) :
    R (rowOf c' id) := by
  have hstep : ∀ a e b, Pool.Step (engine (provider X) E) a e b → ok a e b →
      Sound a ∧ R (rowOf a id) → Sound b ∧ R (rowOf b id) := by
    rintro a e b hs hok ⟨hsound, hRa⟩
    have hone : Pool.Run (engine (provider X) E) (fun _ _ _ => True) a b :=
      (Pool.Run.refl a).tail hs trivial
    refine ⟨sound_run hone hsound, ?_⟩
    obtain hsame | ⟨p, ev, call, rfl, hcall, hengine, htouch⟩ := row_step hsound hs id
    · rw [hsame]
      exact hRa
    · exact hR a p ev call b _ _ hok hcall hengine rfl rfl htouch hRa
  exact (h.pool hstep ⟨hc, hrow⟩).2

theorem comesIn {a : EnginePool} {w : World Inner} {ts : List (Proc Eff Answer Unit)}
    (h : Pool.Run (engine (provider X) E) ok a ⟨w, ts⟩) (req : Request) (hserved : req.Served E)
    (hok : ok ⟨w, ts⟩ (.started (req.run (provider X) E)) ⟨w, req.run (provider X) E :: ts⟩) :
    Pool.Run (engine (provider X) E) ok a ⟨w, req.run (provider X) E :: ts⟩ :=
  h.enter ⟨req, hserved, rfl⟩ hok

/-- The thread at place `i` makes its call of the backend. -/
theorem asks {ok : EnginePool → EngineEvent → EnginePool → Prop} {a : EnginePool}
    {w : World Inner} {ts : List (Proc Eff Answer Unit)}
    (h : Pool.Run (engine (provider X) E) ok a ⟨w, ts⟩) (i : Nat) {c : ProviderCall}
    {k : Except Error c.Result → Proc Eff Answer Unit}
    (ht : ts[i]? = some (.call (.provider c) k))
    (hok : let w' : World Inner := ⟨(call c w.clock "" w.store).2, w.clock⟩
      ok ⟨w, ts⟩ (.ran (.call (.provider c) k)
        (some ⟨.provider c, w, (call c w.clock "" w.store).1, w'⟩))
        ⟨w', ts.set i (k (call c w.clock "" w.store).1)⟩) :
    Pool.Run (engine (provider X) E) ok a ⟨⟨(call c w.clock "" w.store).2, w.clock⟩,
      ts.set i (k (call c w.clock "" w.store).1)⟩ := by
  have hrun := h.act i ht _ told
  simp only [spawned, List.append_nil] at hrun
  exact hrun hok

end

/-! ## Outcomes -/

/-- The row has an outcome. -/
def Finished (row : WorkflowStatus) : Prop := row.status = .success ∨ row.status = .error

/-- The rows agree on status, output and error. -/
structure SameOutcome (row row' : WorkflowStatus) : Prop where
  status : row'.status = row.status
  output : row'.output = row.output
  error : row'.error = row.error

/-- A call that respects the outcome in `row`: a status write repeats it, nothing puts the row on a
queue again, and a recovery is counted below the cap. -/
def RespectsOutcome (id : String) (row : WorkflowStatus) : ProviderCall → Prop
  | .setWorkflowStatus id' status output error => id' = id →
      status = row.status ∧ output.or row.output = row.output ∧ error.or row.error = row.error
  | .enqueueExisting id' _ => id' ≠ id
  | .bumpRecoveryAttempts id' max => id' = id → row.recoveryAttempts + 1 ≤ max
  | _ => True

/-- A call made while `id` has an outcome respects it. -/
def OutcomeRespected (id : String) (c : EnginePool) (e : EngineEvent) : Prop :=
  ∀ p ev call row, e = .ran p (some ev) → ev.call = .provider call → rowOf c id = some row →
    Finished row → RespectsOutcome id row call

variable {now : DateTime} {row : WorkflowStatus}

theorem bumpRow_of_le {max : Int} (h : row.recoveryAttempts + 1 ≤ max) :
    bumpRow now max row = { row with recoveryAttempts := row.recoveryAttempts + 1 } :=
  if_neg (by omega)

theorem Finished.isTerminal (h : Finished row) : row.status.isTerminal = true := by
  rcases h with h | h <;> rw [h] <;> rfl

variable {call : ProviderCall} {y : Option WorkflowStatus}

/-- A touch by a call that respects the outcome keeps it, unless it deletes the row. -/
theorem sameOutcome_touch (h : Touch now id call (some row) y) (hfin : Finished row)
    (hcall : RespectsOutcome id row call) (hy : y.isSome) :
    ∃ row', y = some row' ∧ SameOutcome row row' := by
  cases h with
  | keep => exact ⟨row, rfl, rfl, rfl, rfl⟩
  | write hguard =>
    obtain ⟨hstatus, houtput, herror⟩ := hcall rfl
    exact ⟨_, rfl, hstatus, houtput, herror⟩
  | cancel hc hlive =>
    rw [hfin.isTerminal] at hlive
    exact nomatch hlive
  | resume hc hres =>
    have hstatus : row.status ≠ .cancelled := by
      rcases hfin with h | h <;> simp [h]
    simp [resumable, hfin.isTerminal, hstatus] at hres
  | enqueue => exact absurd rfl hcall
  | bump =>
    rw [bumpRow_of_le (hcall rfl)]
    exact ⟨_, rfl, rfl, rfl, rfl⟩
  | claim hst => rcases hfin with h | h <;> simp [h] at hst
  | promote hst => rcases hfin with h | h <;> simp [h] at hst
  | delete => exact nomatch hy

/-- **An outcome stays.**  Once a row has an outcome, its status, output and error do not change, in
every run whose calls respect the outcome while it is there and that does not delete the row. -/
theorem outcome_stays [Serde DateTime] {X : TextCodec} {E : Engine} {w₀ : World Inner}
    (hg : WellKeyed w₀.store) {c₁ c₂ : EnginePool}
    (h₁ : Pool.Run (engine (provider X) E) (fun _ _ _ => True) ⟨w₀, []⟩ c₁) {id : String}
    {row : WorkflowStatus} (hrow : rowOf c₁ id = some row) (hfin : Finished row)
    (h₂ : Pool.Run (engine (provider X) E)
      (fun a e b => OutcomeRespected id a e ∧ (rowOf b id).isSome) c₁ c₂) :
    ∃ row', rowOf c₂ id = some row' ∧ SameOutcome row row' := by
  have hsound : Sound c₁ := sound_run h₁ ⟨hg, fun _ h => nomatch h⟩
  refine row_run (R := fun x => ∃ row', x = some row' ∧ SameOutcome row row') ?_ h₂ hsound
    ⟨row, hrow, rfl, rfl, rfl⟩
  rintro a p ev call b x y ⟨hok, hsome⟩ hcall - hx rfl htouch ⟨row₁, rfl, hsame⟩
  have hfin₁ : Finished row₁ := by
    unfold Finished
    rw [hsame.status]
    exact hfin
  obtain ⟨row₂, hrow₂, h₂⟩ :=
    sameOutcome_touch htouch hfin₁ (hok p ev call row₁ rfl hcall hx hfin₁) hsome
  exact ⟨row₂, hrow₂, h₂.status.trans hsame.status, h₂.output.trans hsame.output,
    h₂.error.trans hsame.error⟩

section

attribute [local instance] serdeNanos

/-- An engine with one workflow, which returns at once. -/
def shop : Engine where
  registry := [("order", fun _ _ => .done (.returned (.ok .null)))]
  appVersion := ""

/-- The row of the workflow `w`, as it is inserted. -/
def order : WorkflowStatus :=
  newRun shop.runtime 0 ⟨0⟩ "w" "order" .null { workflowId := some "w" } none {}

/-- Its execution. -/
def ordering : Proc Eff Answer Unit :=
  (runToCompletion (provider noText) shop.runtime (fun _ _ => .done (.returned (.ok .null))) "w"
    .null none {}).task

/-- `start` has inserted the row and begun the execution. -/
theorem order_started : Pool.Run (engine (provider noText) shop) (fun _ _ _ => True)
    ⟨⟨{}, ⟨0⟩⟩, []⟩ ⟨⟨{ workflows := AList.singleton "w" order }, ⟨0⟩⟩, [.ret (), ordering]⟩ := by
  have hstart : Pool.Run (engine (provider noText) shop) (fun _ _ _ => True) ⟨⟨{}, ⟨0⟩⟩, []⟩ _ :=
    comesIn (.refl _) (.start "" Unit "order" () { workflowId := some "w" }) trivial trivial
  have hrow := asks (hstart |>.turn 0 rfl trivial |>.act 0 rfl _ ⟨rfl, rfl⟩ trivial
    |>.act 0 rfl _ ⟨rfl, rfl⟩ trivial) 0 rfl trivial
  exact hrow.act 0 rfl () rfl trivial

/-- The run finishes, and a cancel that comes later changes nothing. -/
theorem outcome_stays_order : ∃ c₁ c₂,
    Pool.Run (engine (provider noText) shop) (fun _ _ _ => True) ⟨⟨{}, ⟨0⟩⟩, []⟩ c₁ ∧
      rowOf c₁ "w" = some (applyStatus ⟨0⟩ .success (some .null) none order) ∧
      Pool.Run (engine (provider noText) shop)
        (fun a e b => OutcomeRespected "w" a e ∧ (rowOf b "w").isSome) c₁ c₂ ∧
      ∃ row', rowOf c₂ "w" = some row' ∧ row'.status = .success ∧ row'.output = some .null := by
  have h₁ : Pool.Run (engine (provider noText) shop) (fun _ _ _ => True) ⟨⟨{}, ⟨0⟩⟩, []⟩
      ⟨⟨{ workflows := AList.singleton "w" (applyStatus ⟨0⟩ .success (some .null) none order) },
        ⟨0⟩⟩, [.ret (), .ret ()]⟩ := asks order_started 1 rfl trivial
  have h₂ : Pool.Run (engine (provider noText) shop)
      (fun a e b => OutcomeRespected "w" a e ∧ (rowOf b "w").isSome)
      ⟨⟨{ workflows := AList.singleton "w" (applyStatus ⟨0⟩ .success (some .null) none order) },
        ⟨0⟩⟩, [.ret (), .ret ()]⟩ _ :=
    asks (comesIn (.refl _) (.cancelWorkflow "w") trivial ⟨fun _ _ _ _ h => (nomatch h), rfl⟩) 0 rfl
      ⟨by rintro _ _ _ _ ⟨rfl, rfl⟩ ⟨rfl⟩ - -; trivial, rfl⟩
  obtain ⟨row', hrow', hsame⟩ := outcome_stays wellKeyed_empty h₁ rfl (.inl rfl) h₂
  exact ⟨_, _, h₁, rfl, h₂, row', hrow', hsame.status, hsame.output⟩

/-- **A finished workflow goes back on a queue**: a resume found it running, it then finished, and
the second half of the resume put its row on the queue. -/
theorem outcome_lost : ∃ c₁,
    Pool.Run (engine (provider noText) shop) (fun _ _ _ => True) ⟨⟨{}, ⟨0⟩⟩, []⟩ c₁ ∧
      (∃ row, rowOf c₁ "w" = some row ∧ row.status = .success) ∧
      ∃ c₂, Pool.Run (engine (provider noText) shop) (fun _ _ b => (rowOf b "w").isSome) c₁ c₂ ∧
        ∃ row, rowOf c₂ "w" = some row ∧ row.status = .enqueued := by
  have hresume := asks (comesIn order_started (.resumeWorkflowOn "w" INTERNAL_QUEUE) trivial
    trivial) 0 rfl trivial
  have h₁ := asks hresume 2 rfl trivial
  exact ⟨_, h₁, ⟨_, rfl, rfl⟩, _, asks (.refl _) 0 rfl rfl, _, rfl, rfl⟩

end

/-! ## Cancellations -/

/-- A call that spares the cancelled `row`: it does not write `ENQUEUED`, does not put the row on a
queue, and counts a recovery below the cap. -/
def SparesCancelled (id : String) (row : WorkflowStatus) : ProviderCall → Prop
  | .setWorkflowStatus id' status _ _ => id' = id → status ≠ .enqueued
  | .enqueueExisting id' _ => id' ≠ id
  | .bumpRecoveryAttempts id' max => id' = id → row.recoveryAttempts + 1 ≤ max
  | _ => True

/-- A call made while `id` is cancelled spares it. -/
def CancellationSpared (id : String) (c : EnginePool) (e : EngineEvent) : Prop :=
  ∀ p ev call row, e = .ran p (some ev) → ev.call = .provider call → rowOf c id = some row →
    row.status = .cancelled → SparesCancelled id row call

/-- The step is not the one with which a resume of `id` takes effect. -/
def NotResumed (id : String) (e : EngineEvent) : Prop :=
  ∀ p ev call, e = .ran p (some ev) → ev.call = .provider call → ¬Resumes id call

theorem status_of_engine {status : Status} {output : Option Value} {error : Option String}
    (h : (Eff.provider (.setWorkflowStatus id status output error)).Engine) :
    status = .success ∨ status = .error ∨ status = .cancelled ∨ status = .enqueued := by
  rcases h with h | ⟨_, ⟨⟩⟩
  · cases (show Writes status output error from h) <;> simp
  · simp

/-- A touch by a call of the engine that spares the cancelled row and is no resume keeps it
cancelled, unless it deletes the row. -/
theorem cancelled_touch (h : Touch now id call (some row) y) (hst : row.status = .cancelled)
    (hengine : (Eff.provider call).Engine) (hcall : SparesCancelled id row call)
    (hres : ¬Resumes id call) (hy : y.isSome) :
    ∃ row', y = some row' ∧ row'.status = .cancelled := by
  cases h with
  | keep => exact ⟨row, rfl, hst⟩
  | @write _ status _ _ hguard =>
    refine ⟨_, rfl, ?_⟩
    change status = .cancelled
    -- A completion is refused on a cancelled row, and `ENQUEUED` is excluded.
    rcases status_of_engine hengine with h | h | h | h
    · exact absurd ⟨.inl h, hst⟩ hguard
    · exact absurd ⟨.inr h, hst⟩ hguard
    · exact h
    · exact absurd h (hcall rfl)
  | cancel hc hlive =>
    rw [hst] at hlive
    exact nomatch hlive
  | resume hc => exact absurd hc hres
  | enqueue => exact absurd rfl hcall
  | bump =>
    rw [bumpRow_of_le (hcall rfl)]
    exact ⟨_, rfl, hst⟩
  | claim h => simp [hst] at h
  | promote h => simp [hst] at h
  | delete => exact nomatch hy

/-- **A cancellation stays.**  A cancelled row stays cancelled, in every run whose calls spare it
while it is cancelled, until a later resume takes effect or the row is deleted. -/
theorem cancellation_stays [Serde DateTime] {X : TextCodec} {E : Engine} {w₀ : World Inner}
    (hg : WellKeyed w₀.store) {c₁ c₂ : EnginePool}
    (h₁ : Pool.Run (engine (provider X) E) (fun _ _ _ => True) ⟨w₀, []⟩ c₁) {id : String}
    {row : WorkflowStatus} (hrow : rowOf c₁ id = some row) (hst : row.status = .cancelled)
    (h₂ : Pool.Run (engine (provider X) E)
      (fun a e b => CancellationSpared id a e ∧ NotResumed id e ∧ (rowOf b id).isSome) c₁ c₂) :
    ∃ row', rowOf c₂ id = some row' ∧ row'.status = .cancelled := by
  have hsound : Sound c₁ := sound_run h₁ ⟨hg, fun _ h => nomatch h⟩
  refine row_run (R := fun x => ∃ row', x = some row' ∧ row'.status = .cancelled) ?_ h₂ hsound
    ⟨row, hrow, hst⟩
  rintro a p ev call b x y ⟨hok, hres, hsome⟩ hcall hengine hx rfl htouch ⟨row₁, rfl, hst₁⟩
  exact cancelled_touch htouch hst₁ hengine (hok p ev call row₁ rfl hcall hx hst₁)
    (hres p ev call rfl hcall) hsome

section

attribute [local instance] serdeNanos

/-- The workflow is cancelled while it runs, and its execution, which was about to return, is
refused its `SUCCESS`. -/
theorem cancellation_stays_order : ∃ c₁ c₂,
    Pool.Run (engine (provider noText) shop) (fun _ _ _ => True) ⟨⟨{}, ⟨0⟩⟩, []⟩ c₁ ∧
      rowOf c₁ "w" = some (cancelRow ⟨0⟩ order) ∧
      Pool.Run (engine (provider noText) shop)
        (fun a e b => CancellationSpared "w" a e ∧ NotResumed "w" e ∧ (rowOf b "w").isSome) c₁ c₂ ∧
      c₂.threads = [.ret (), .ret (), .ret ()] ∧
      ∃ row', rowOf c₂ "w" = some row' ∧ row'.status = .cancelled := by
  have h₁ : Pool.Run (engine (provider noText) shop) (fun _ _ _ => True) ⟨⟨{}, ⟨0⟩⟩, []⟩
      ⟨⟨{ workflows := AList.singleton "w" (cancelRow ⟨0⟩ order) }, ⟨0⟩⟩,
        [.ret (), .ret (), ordering]⟩ :=
    asks (comesIn order_started (.cancelWorkflow "w") trivial trivial) 0 rfl trivial
  have h₂ : Pool.Run (engine (provider noText) shop)
      (fun a e b => CancellationSpared "w" a e ∧ NotResumed "w" e ∧ (rowOf b "w").isSome)
      ⟨⟨{ workflows := AList.singleton "w" (cancelRow ⟨0⟩ order) }, ⟨0⟩⟩,
        [.ret (), .ret (), ordering]⟩ _ :=
    asks (.refl _) 2 rfl ⟨by rintro _ _ _ _ ⟨rfl, rfl⟩ ⟨rfl⟩ - - -; simp,
      by rintro _ _ _ ⟨rfl, rfl⟩ ⟨rfl⟩ h; exact h, rfl⟩
  exact ⟨_, _, h₁, rfl, h₂, rfl, cancellation_stays wellKeyed_empty h₁ rfl rfl h₂⟩

/-- **A cancelled workflow goes back on a queue**: a resume took effect, the workflow was cancelled
after it, and the second half of that resume put the cancelled row on the queue. -/
theorem cancellation_lost : ∃ c₁,
    Pool.Run (engine (provider noText) shop) (fun _ _ _ => True) ⟨⟨{}, ⟨0⟩⟩, []⟩ c₁ ∧
      (∃ row, rowOf c₁ "w" = some row ∧ row.status = .cancelled) ∧
      ∃ c₂, Pool.Run (engine (provider noText) shop)
          (fun _ e b => NotResumed "w" e ∧ (rowOf b "w").isSome) c₁ c₂ ∧
        ∃ row, rowOf c₂ "w" = some row ∧ row.status = .enqueued := by
  have hresume := asks (comesIn order_started (.resumeWorkflowOn "w" INTERNAL_QUEUE) trivial
    trivial) 0 rfl trivial
  have h₁ := asks (comesIn hresume (.cancelWorkflow "w") trivial trivial) 0 rfl trivial
  exact ⟨_, h₁, ⟨_, rfl, rfl⟩, _,
    asks (.refl _) 1 rfl ⟨by rintro _ _ _ ⟨rfl, rfl⟩ ⟨rfl⟩ h; exact h, rfl⟩, _, rfl, rfl⟩

end

end Durare.Memory
