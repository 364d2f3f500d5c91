import Durare.Engine.RowSteps
import Durare.Engine.Staged

/-!
# Engine/Deadlines — a workflow has one deadline

The deadline of a workflow with a timeout is written once: when its row is inserted, if it runs at
once, and otherwise when it is first claimed.  From there it is carried in snapshots — the row an
insert returns, the rows of a claim, the listing of a sweep — to the execution that is run with it.

* `learned` — the deadlines an answer of the backend tells, `learning` — an execution is started
  only with a deadline that was told; `informed_request`.
* `Stamped` — the world with the time of the first start of the watched workflow, `Stamp` — its row
  has the deadline that belongs to it.
* `deadline_fixed` — any number of engines over one store.
-/

namespace Durare

open List Option

open Verb

/-! ## Executions by their deadlines -/

section

variable [Serde DateTime] (P : Provider) (E : Engine)

/-- An execution as a stage under the id and the deadline it is run with. -/
def execution (handler : WorkflowFn) (id : String) (input : Value) (deadlineMs : Option Int)
    (auth : AuthContext) (s : CtxState)
    (k : Except Error Value × CtxState → Stages Eff Answer (String × Option Int)) :
    Stages Eff Answer (String × Option Int) :=
  .stage (some (id, deadlineMs)) (runToCompletion P E.runtime handler id input deadlineMs auth s) k

/-- The sweep over a snapshot, its executions by their deadlines. -/
def timedSweep : List WorkflowStatus → CtxState → Stages Eff Answer (String × Option Int)
  | [], _ => .done
  | record :: pending, s => .stage none (takeUp E record s) fun
      | (.ok .run, s) => match E.handler (registryKey record.name record.configName) with
        | some handler => execution P E handler record.id record.input record.deadlineMs
            (AuthContext.fromStatus record) s fun r => timedSweep pending r.2
        | none => timedSweep pending s
      | (.ok .skip, s) => timedSweep pending s
      | _ => .done

/-- A request, its executions by their deadlines. -/
def Request.timed : Request → Stages Eff Answer (String × Option Int)
  | .recoverPendingWorkflows executorIds => .stage none (listPendingWorkflows E executorIds {}) fun
      | (.ok pending, s) => timedSweep P E pending s
      | (.error _, _) => .done
  | req => .stage none (req.run P E) fun _ => .done

variable {P E}

theorem rename_timedSweep (pending : List WorkflowStatus) (s : CtxState) :
    (timedSweep P E pending s).rename Prod.fst = sweep E P pending s := by
  induction pending generalizing s with
  | nil => rfl
  | cons record pending ih =>
    refine congrArg (Stages.stage none (takeUp E record s)) (funext fun r => ?_)
    obtain ⟨_ | _ | _ | _, s'⟩ := r
    · rfl
    · rfl
    · exact ih s'
    · dsimp only
      cases E.handler (registryKey record.name record.configName) with
      | none => exact ih s'
      | some handler =>
        exact congrArg (Stages.stage (some record.id) (runToCompletion P E.runtime handler
          record.id record.input record.deadlineMs (AuthContext.fromStatus record) s'))
          (funext fun r => ih r.2)

/-- **With its deadlines or without, a request is the same process.** -/
theorem toProc_timed (req : Request) : (req.timed P E).toProc = req.run P E := by
  rw [← toProc_stages req, ← Stages.toProc_rename Prod.fst]
  refine congrArg Stages.toProc ?_
  cases req with
  | recoverPendingWorkflows executorIds =>
    refine congrArg (Stages.stage none (listPendingWorkflows E executorIds {}))
      (funext fun r => ?_)
    obtain ⟨_ | pending, s⟩ := r
    · rfl
    · exact rename_timedSweep pending s
  | _ => rfl

end

/-! ## What the engine is told -/

/-- An effect of the engine that starts nothing. -/
def Eff.Tame (e : Eff) : Prop := e.Authored ∧ ∀ id deadlineMs, ¬e.Starts id deadlineMs

variable {c : ProviderCall}

theorem tame_of_authored (h : Eff.Authored (.provider c)) : Eff.Tame (.provider c) := by
  refine ⟨h, ?_⟩
  rintro id deadlineMs ⟨key, input, auth, heq⟩
  cases heq

/-- The method starts nothing but with deadlines it was told, and forgets none. -/
abbrev Informs {α : Type} (x : Verb α) : Prop := Moves learning Grows x

theorem informs_of_calls {α : Type} {x : Verb α} (h : x.Calls Eff.Tame) : Informs x := by
  refine fun s known => (h s).keeps ?_ ?_ known (.refl known)
  · rintro _ _ hgrows rfl
    exact hgrows
  · rintro e he known₁ r _ hgrows rfl
    exact ⟨⟨he.1, fun id deadlineMs hstarts => absurd hstarts (he.2 id deadlineMs)⟩,
      hgrows.trans (grows_append _ _)⟩

theorem Balanced.informs {α : Type} {x : Verb α} (h : Balanced x) : Informs x :=
  fun s known => wp_learning (h s ([], known))

variable {deadlineMs : Option Int} {id : String} {known : List (String × Option Int)}

section

variable [Serde DateTime] {X : TextCodec} {E : Engine}

theorem informs_runToCompletion {rt : Runtime} {handler : WorkflowFn} {input : Value}
    {auth : AuthContext} :
    Informs (runToCompletion (Memory.provider X) rt handler id input deadlineMs auth) :=
  fun _ _ => wp_learning wp_runToCompletion_charge

/-- The code starts nothing but with deadlines it was told, now and in every later stage. -/
def Informed (code : Stages Eff Answer (String × Option Int)) (known : List (String × Option Int)) :
    Prop :=
  code.wp learning (fun name known => ∀ l, name = some l → l ∈ known) (fun _ known => known) known

omit [Serde DateTime] in
/-- **One step of informed code** starts nothing but with a deadline it was told; a stage that
begins has one it was told, too. -/
theorem informed_step {W : Type} {handle : (e : Eff) → W → Answer e → W → Prop}
    {code code' : Stages Eff Answer (String × Option Int)} {w w' : W}
    {e : Option (Proc.Event Eff Answer W)} (hs : Stages.Step handle code w e code' w')
    (h : Informed code known) :
    (∀ ev, e = some ev → ev.call.Authored ∧
      ∀ id deadlineMs, ev.call.Starts id deadlineMs → (id, deadlineMs) ∈ known) ∧
    Informed code' (e.elim known fun ev => learned ev.call ev.answer ++ known) ∧
    (code'.name = code.name ∨ ∀ l, code'.name = some l → l ∈ known) := by
  cases hs with
  | run hp =>
    cases hp with
    | call hr =>
      obtain ⟨hguar, hk⟩ := Stages.wp_run (fun _ => rfl) h (.call rfl)
      refine ⟨?_, hk, .inl rfl⟩
      rintro ev ⟨rfl⟩
      exact hguar _ rfl
    | unfold => exact ⟨fun ev hev => (nomatch hev), Proc.wp_unfold h, .inl rfl⟩
  | next => exact ⟨fun ev hev => (nomatch hev), h.2, .inr h.1⟩

omit [Serde DateTime] in
theorem informs_takeUp {record : WorkflowStatus} : Informs (takeUp E record) := fun _ _ =>
  wp_learning (wp_takeUp_charge (List.Subperm.refl [record.id]))

theorem name_timedSweep {P : Provider} (pending : List WorkflowStatus) (s : CtxState) :
    (timedSweep P E pending s).name = none := by
  cases pending with
  | nil => rfl
  | cons record pending => rfl

theorem informed_timedSweep {pending : List WorkflowStatus} :
    ∀ {s : CtxState} {known : List (String × Option Int)},
      (∀ record ∈ pending, (record.id, record.deadlineMs) ∈ known) →
      Informed (timedSweep (Memory.provider X) E pending s) known := by
  have hnext {code : Stages Eff Answer (String × Option Int)} {known : List (String × Option Int)}
      (hname : code.name = none) (h : Informed code known) :
      (∀ l, code.name = some l → l ∈ known) ∧ Informed code known := by
    rw [hname]
    exact ⟨fun _ hl => (nomatch hl), h⟩
  induction pending with
  | nil => exact fun _ => trivial
  | cons record pending ih =>
    intro s known htold
    refine Proc.wp_mono ?_ (informs_takeUp s known)
    rintro ⟨r, s'⟩ known' hgrows
    have hrest : ∀ {s : CtxState} {known''}, Grows known' known'' →
        Informed (timedSweep (Memory.provider X) E pending s) known'' := fun hgrows' =>
      ih fun record' hrecord' =>
        hgrows' _ (hgrows _ (htold record' (mem_cons_of_mem _ hrecord')))
    rcases r with _ | _ | _ | _
    · exact hnext rfl trivial
    · exact hnext rfl trivial
    · exact hnext (name_timedSweep pending s') (hrest (.refl _))
    · dsimp only
      cases E.handler (registryKey record.name record.configName) with
      | none => exact hnext (name_timedSweep pending s') (hrest (.refl _))
      | some handler =>
        refine ⟨?_, Proc.wp_mono ?_ (informs_runToCompletion s' known')⟩
        · rintro _ ⟨rfl⟩
          exact hgrows _ (htold record mem_cons_self)
        · exact fun r known'' hgrows' => hnext (name_timedSweep pending r.2) (hrest hgrows')

/-- **Every request starts executions only with deadlines it was told.** -/
theorem informed_request (req : Request) :
    Informed (req.timed (Memory.provider X) E) [] := by
  have hsingle {α : Type} {x : Verb α} (hx : Informs x) :
      Informed (.stage none x.task fun _ => .done) [] :=
    Stages.wp_single nofun (Proc.wp_bind (Proc.wp_mono (fun _ _ _ => trivial) (hx {} [])))
  have hask {c : ProviderCall} (hc : Eff.Authored (.provider c)) : (ask c).Calls Eff.Tame :=
    calls_ask (tame_of_authored hc)
  cases req with
  | start uuid I name input opts => exact hsingle balanced_start.informs
  | cancelWorkflow id => exact hsingle (informs_of_calls (hask trivial))
  | cancelWorkflows ids => exact hsingle (informs_of_calls (hask trivial))
  | deleteWorkflows ids children => exact hsingle (informs_of_calls (hask trivial))
  | queueDispatchLoop queue => exact hsingle balanced_queueDispatchLoop.informs
  | resumeWorkflowOn id queue =>
    refine hsingle (informs_of_calls (calls_bind (hask trivial) fun resumed => ?_))
    split
    · exact calls_bind (hask trivial) fun _ => calls_pure
    · refine calls_bind (hask trivial) fun row => ?_
      cases row with
      | some _ => exact calls_pure
      | none => exact calls_fail
  | resumeWorkflowsOn ids queue =>
    exact hsingle (informs_of_calls (calls_bind (hask trivial) fun resumed =>
      calls_bind (calls_forEach (fun id => hask (c := .enqueueExisting id queue)
        trivial) _) fun _ =>
        calls_bind (hask trivial) fun _ => calls_pure))
  | recoverPendingWorkflows executorIds =>
    rintro _ rfl r _ rfl
    refine ⟨⟨trivial, fun _ _ hstarts => nomatch hstarts.spent⟩, ?_⟩
    cases r with
    | error e => exact ⟨fun _ hl => (nomatch hl), trivial⟩
    | ok pending =>
      refine ⟨?_, informed_timedSweep fun record hrecord => ?_⟩
      · rw [name_timedSweep]
        exact fun _ hl => nomatch hl
      · exact mem_append_left _ (mem_map_of_mem hrecord)

end

namespace Memory

/-! ## The first start -/

/-- When the answer starts `id`: a run that is not queued when it is created, any other when it is
claimed. -/
def startedBy (id : String) : (e : Eff) → Answer e → DateTime → Option Int
  | .provider (.insertWorkflowStatus status), .ok (_, true), _ =>
    if status.id = id ∧ status.queueName = none then some status.createdAt.timestampMillis else none
  | .provider (.dequeueWorkflows _), .ok claimed, now =>
    if id ∈ claimed.map (·.id) then some now.timestampMillis else none
  | _, _, _ => none

/-- The row of `id` has the timeout `t` and the deadline of its first start: none before it. -/
structure Stamp (id : String) (t : Int) (g : Inner) (first : Option Int) : Prop where
  keyed : WellKeyed g
  absent : g.workflows.lookup id = none → first = none
  timeout : ∀ row, g.workflows.lookup id = some row → row.timeoutMs = some t
  deadline : ∀ row, g.workflows.lookup id = some row → row.deadlineMs =
    first.map fun at_ms => i64 (at_ms + t)
  pending : ∀ row, g.workflows.lookup id = some row → row.status = .pending → first.isSome

/-- The deadline that belongs to the first start. -/
def Due (t : Int) (first deadlineMs : Option Int) : Prop :=
  ∃ at_ms, first = some at_ms ∧ deadlineMs = some (i64 (at_ms + t))

/-- A call that leaves the deadline of `id` to the engine: it does not resume it, creates it once
and with the timeout `t`, and does not delete it. -/
structure Lasting (id : String) (t : Int) (c : ProviderCall) (g g' : Inner) : Prop where
  resume : ¬Resumes id c
  create : ∀ status, c = .insertWorkflowStatus status → status.id = id →
    g.workflows.lookup id = none ∧ status.timeoutMs = some t
  survive : (g.workflows.lookup id).isSome → (g'.workflows.lookup id).isSome

variable {first' : Option Int} {req : DequeueRequest} {status : WorkflowStatus}

section

variable {id uuid : String} {t : Int} {g g' : Inner} {first : Option Int} {now : DateTime}

/-- A row with the same timeout and deadline, and no more pending than before. -/
theorem Stamp.of_same (h : Stamp id t g first) (hg' : WellKeyed g')
    (hnone : g'.workflows.lookup id = none → g.workflows.lookup id = none)
    (hsome : ∀ row', g'.workflows.lookup id = some row' → ∃ row, g.workflows.lookup id = some row ∧
      row'.timeoutMs = row.timeoutMs ∧ row'.deadlineMs = row.deadlineMs ∧
      (row'.status = .pending → row.status = .pending)) : Stamp id t g' first where
  keyed := hg'
  absent hx := h.absent (hnone hx)
  timeout row' hrow' := by
    obtain ⟨row, hrow, htimeout, -, -⟩ := hsome row' hrow'
    exact htimeout.trans (h.timeout row hrow)
  deadline row' hrow' := by
    obtain ⟨row, hrow, -, hdeadline, -⟩ := hsome row' hrow'
    exact hdeadline.trans (h.deadline row hrow)
  pending row' hrow' hpending := by
    obtain ⟨row, hrow, -, -, hstatus⟩ := hsome row' hrow'
    exact h.pending row hrow (hstatus hpending)

theorem Stamp.due (h : Stamp id t g first) {row : WorkflowStatus}
    (hrow : g.workflows.lookup id = some row) (hsome : first.isSome) :
    Due t first row.deadlineMs := by
  obtain ⟨at_ms, rfl⟩ := isSome_iff_exists.mp hsome
  exact ⟨at_ms, rfl, h.deadline row hrow⟩

theorem Touch.same_deadline {row row' : WorkflowStatus} (h : Touch now id c (some row) (some row'))
    (hauthored : Eff.Authored (.provider c)) (hresume : ¬Resumes id c)
    (hclaim : ∀ req, c ≠ .dequeueWorkflows req) :
    row'.timeoutMs = row.timeoutMs ∧ row'.deadlineMs = row.deadlineMs ∧
      (row'.status = .pending → row.status = .pending) := by
  cases h with
  | keep => exact ⟨rfl, rfl, fun h => h⟩
  | write =>
    refine ⟨rfl, rfl, fun hpending => ?_⟩
    -- The engine never writes `PENDING`.
    rcases hauthored with hwrites | ⟨_, heq⟩
    · cases hwrites <;> cases hpending
    · cases heq
      cases hpending
  | cancel _ hlive =>
    rw [cancelRow, if_neg (by simp [hlive])]
    exact ⟨rfl, rfl, fun h => by cases h⟩
  | resume hc => exact absurd hc hresume
  | enqueue => exact ⟨rfl, rfl, fun h => by cases h⟩
  | bump =>
    unfold bumpRow
    dsimp only
    split
    · exact ⟨rfl, rfl, fun h => by cases h⟩
    · exact ⟨rfl, rfl, fun h => h⟩
  | claim => exact absurd rfl (hclaim _)
  | promote => exact ⟨rfl, rfl, fun h => by cases h⟩

theorem due_of_listed {filter : ListFilter} (h : Stamp id t g first)
    (htold : (id, deadlineMs) ∈ learned (.provider (.listWorkflows filter))
      (listWorkflows filter g).1) :
    Due t first deadlineMs := by
  obtain ⟨rows, hlist, hsub⟩ := listWorkflows_rows filter g
  rw [hlist] at htold
  change _ ∈ if filter.status = [.pending] then (rows.map (project filter)).map _ else _ at htold
  split at htold
  · next hfilter =>
      obtain ⟨listed, hlisted, heq⟩ := mem_map.mp htold
      obtain ⟨row, hrow, rfl⟩ := mem_map.mp hlisted
      obtain ⟨hlookup, hstatus⟩ := listed_row h.keyed (hsub.subset hrow)
      obtain ⟨rfl, rfl⟩ := Prod.mk.inj heq
      have hpending : row.status = .pending := by simpa [hfilter, anyOf] using hstatus
      have hdue : Due t first row.deadlineMs := h.due hlookup (h.pending row hlookup hpending)
      exact hdue
  · cases htold

theorem lookup_of_claimed (hg : WellKeyed g) {rows : List WorkflowStatus}
    (h : (dequeueWorkflows now req g).1 = .ok rows) {row : WorkflowStatus} (hrow : row ∈ rows) :
    (dequeueWorkflows now req g).2.workflows.lookup row.id = some row := by
  cases h
  obtain ⟨id, -, hlookup⟩ := mem_filterMap.mp hrow
  have hkeyed : WellKeyed (dequeueWorkflows now req g).2 :=
    wellKeyed_call hg (.dequeueWorkflows req) ""
  rw [hkeyed id row hlookup]
  exact hlookup

/-- A claim stamps the row at its first start, and tells the deadline. -/
theorem stamp_claim (h : Stamp id t g first)
    (hfirst : first' = first.or (startedBy id (.provider (.dequeueWorkflows req))
      (dequeueWorkflows now req g).1 now)) :
    Stamp id t (dequeueWorkflows now req g).2 first' ∧
      ∀ deadlineMs, (id, deadlineMs) ∈ learned (.provider (.dequeueWorkflows req))
        (dequeueWorkflows now req g).1 → Due t first' deadlineMs := by
  obtain ⟨rows, hrows, hids⟩ := @dequeueWorkflows_ids g now h.keyed req
  have hkeyed : WellKeyed (dequeueWorkflows now req g).2 :=
    wellKeyed_call h.keyed (.dequeueWorkflows req) ""
  have hlookup := @lookup_dequeueWorkflows g now id req
  rw [hrows] at hfirst
  change first' = first.or (if id ∈ rows.map (·.id) then some now.timestampMillis
    else none) at hfirst
  rw [hids] at hfirst
  have hstamp : Stamp id t (dequeueWorkflows now req g).2 first' ∧
      (id ∈ claimIds now req g → first'.isSome) := by
    by_cases hclaimed : id ∈ claimIds now req g
    · rw [if_pos hclaimed] at hlookup hfirst
      obtain ⟨row, hrow, -⟩ := enqueued_of_mem_claimIds h.keyed hclaimed
      rw [hrow, map_some] at hlookup
      have hsome : first'.isSome := by
        rw [hfirst]
        cases first <;> rfl
      refine ⟨⟨hkeyed, fun hnone => ?_, ?_, ?_, fun _ _ _ => hsome⟩, fun _ => hsome⟩
      · rw [hlookup] at hnone
        cases hnone
      · intro row' hrow'
        cases hlookup.symm.trans hrow'
        exact h.timeout row hrow
      · intro row' hrow'
        cases hlookup.symm.trans hrow'
        change row.deadlineMs.or (row.timeoutMs.map fun t => i64 (now.timestampMillis + t)) = _
        rw [h.deadline row hrow, h.timeout row hrow, hfirst]
        cases first <;> rfl
    · rw [if_neg hclaimed] at hlookup hfirst
      rw [or_none] at hfirst
      subst hfirst
      refine ⟨h.of_same hkeyed (fun hnone => hlookup ▸ hnone) fun row' hrow' => ?_, fun hmem =>
        absurd hmem hclaimed⟩
      exact ⟨row', hlookup ▸ hrow', rfl, rfl, fun h => h⟩
  refine ⟨hstamp.1, fun deadlineMs htold => ?_⟩
  rw [hrows] at htold
  obtain ⟨row, hrow, heq⟩ := mem_map.mp htold
  obtain ⟨rfl, rfl⟩ := Prod.mk.inj heq
  refine hstamp.1.due (lookup_of_claimed h.keyed hrows hrow) (hstamp.2 ?_)
  rw [← hids]
  exact mem_map_of_mem hrow

/-- The row of a run has the deadline of its creation, unless it is queued. -/
theorem deadline_newRun (h : Eff.NewRun (.provider (.insertWorkflowStatus status)))
    (htimeout : status.timeoutMs = some t) :
    status.deadlineMs = (if status.queueName = none then some status.createdAt.timestampMillis
      else none).map (fun at_ms => i64 (at_ms + t)) ∧
        (status.status = .pending → status.queueName = none) := by
  obtain @⟨rt, nowMs, created, id, name, input, opts, parent, auth⟩ := h
  have htimeout' : opts.timeout.map Duration.asMillis = some t := htimeout
  cases hqueue : opts.queue with
  | none => simp [newRun, WorkflowStatus.new, hqueue, htimeout']
  | some queue => cases hdelay : opts.delay <;> simp [newRun, WorkflowStatus.new, hqueue, hdelay]

theorem wellKeyed_insert (hg : WellKeyed g) (status : WorkflowStatus) :
    WellKeyed (insertWorkflowStatus status g).2 :=
  @wellKeyed_call g status.createdAt hg (.insertWorkflowStatus status) ""

theorem other_insert (hid : status.id ≠ id) (now : DateTime)
    (r : Except Error (WorkflowStatus × Bool)) :
    startedBy id (.provider (.insertWorkflowStatus status)) r now = none ∧
      ∀ deadlineMs, (id, deadlineMs) ∉ learned (.provider (.insertWorkflowStatus status)) r := by
  have hlearned (row : WorkflowStatus) (deadlineMs : Option Int) : (id, deadlineMs) ∉
      if status.queueName = none then [(status.id, row.deadlineMs)] else [] := by
    split
    · intro hmem
      exact hid (congrArg Prod.fst (mem_singleton.mp hmem)).symm
    · exact not_mem_nil
  rcases r with _ | ⟨row, _ | _⟩
  · exact ⟨rfl, fun _ => not_mem_nil⟩
  · exact ⟨rfl, hlearned row⟩
  · exact ⟨if_neg fun h => hid h.1, hlearned row⟩

theorem stamp_insert_ne (h : Stamp id t g first) (hid : status.id ≠ id) :
    Stamp id t (insertWorkflowStatus status g).2 first := by
  have hlookup : (insertWorkflowStatus status g).2.workflows.lookup id =
      g.workflows.lookup id := by
    rcases insertWorkflowStatus_cases status g with ⟨_, _, -, -, -, heq⟩ | ⟨-, heq⟩
    · rw [heq]
    · rw [heq, insertWorkflowStatus.insert]
      split
      · rfl
      · exact AList.lookup_insert_ne (Ne.symm hid)
  refine h.of_same (wellKeyed_insert h.keyed status) (fun hnone => hlookup ▸ hnone)
    fun row' hrow' => ?_
  exact ⟨row', hlookup ▸ hrow', rfl, rfl, fun h => h⟩

/-- An insert stamps the row of a run that is not queued, and tells its deadline. -/
theorem stamp_insert (h : Stamp id t g first)
    (hnew : Eff.NewRun (.provider (.insertWorkflowStatus status)))
    (hlasting : Lasting id t (.insertWorkflowStatus status) g (insertWorkflowStatus status g).2)
    (hfirst : first' = first.or (startedBy id
      (.provider (.insertWorkflowStatus status)) (insertWorkflowStatus status g).1 now)) :
    Stamp id t (insertWorkflowStatus status g).2 first' ∧
      ∀ deadlineMs, (id, deadlineMs) ∈ learned (.provider (.insertWorkflowStatus status))
        (insertWorkflowStatus status g).1 → Due t first' deadlineMs := by
  by_cases hid : status.id = id
  · obtain ⟨hnone, htimeout⟩ := hlasting.create status rfl hid
    obtain rfl := h.absent hnone
    obtain ⟨hdeadline, hpending⟩ := deadline_newRun hnew htimeout
    rcases insertWorkflowStatus_cases status g with ⟨_, _, -, -, -, heq⟩ | ⟨-, heq⟩
    · rw [heq] at hfirst ⊢
      subst hfirst
      exact ⟨h, fun _ htold => nomatch htold⟩
    · subst hid
      rw [insertWorkflowStatus.insert, hnone] at heq
      rw [heq] at hfirst ⊢
      have hfirst' : first' = if status.queueName = none then
          some status.createdAt.timestampMillis else none := by
        simpa [startedBy] using hfirst
      have hlookup : (g.workflows.insert status.id status).lookup status.id = some status :=
        AList.lookup_insert _
      have hstamp : Stamp status.id t { g with workflows := g.workflows.insert status.id status }
          first' := by
        refine ⟨?_, fun habsent => ?_, ?_, ?_, ?_⟩
        · have hkeyed := wellKeyed_insert h.keyed status
          rw [heq] at hkeyed
          exact hkeyed
        · rw [hlookup] at habsent
          cases habsent
        · intro row hrow
          cases hlookup.symm.trans hrow
          exact htimeout
        · intro row hrow
          cases hlookup.symm.trans hrow
          rw [hfirst']
          exact hdeadline
        · intro row hrow hrun
          cases hlookup.symm.trans hrow
          rw [hfirst', if_pos (hpending hrun)]
          rfl
      refine ⟨hstamp, fun deadlineMs htold => ?_⟩
      change _ ∈ if status.queueName = none then [(status.id, status.deadlineMs)] else [] at htold
      split at htold
      · next hdirect =>
          obtain ⟨-, rfl⟩ := Prod.mk.inj (mem_singleton.mp htold)
          refine hstamp.due hlookup ?_
          rw [hfirst', if_pos hdirect]
          rfl
      · cases htold
  · obtain ⟨hstarted, hlearned⟩ := other_insert hid now (insertWorkflowStatus status g).1
    rw [hstarted, or_none] at hfirst
    subst hfirst
    exact ⟨stamp_insert_ne h hid, fun deadlineMs htold => absurd htold (hlearned deadlineMs)⟩

/-- A call that starts nothing and tells nothing. -/
def Mute : ProviderCall → Prop
  | .insertWorkflowStatus _ | .dequeueWorkflows _ | .listWorkflows _ => False
  | _ => True

theorem Mute.startedBy (h : Mute c) (r : Except Error c.Result) :
    startedBy id (.provider c) r now = none := by
  cases c with
  | insertWorkflowStatus | dequeueWorkflows | listWorkflows => exact h.elim
  | _ => rfl

theorem Mute.learned (h : Mute c) (r : Except Error c.Result) : learned (.provider c) r = [] := by
  cases c with
  | insertWorkflowStatus | dequeueWorkflows | listWorkflows => exact h.elim
  | _ => rfl

theorem stamp_mute (h : Stamp id t g first) (hmute : Mute c)
    (hauthored : Eff.Authored (.provider c)) (hlasting : Lasting id t c g (call c now uuid g).2) :
    Stamp id t (call c now uuid g).2 first := by
  have htouch : Touch now id c _ _ := touch h.keyed c uuid
  refine h.of_same (wellKeyed_call h.keyed c uuid) (fun hnone => ?_) fun row' hrow' => ?_
  · cases hx : g.workflows.lookup id with
    | none => rfl
    | some row =>
      have hsome := hlasting.survive (by rw [hx]; rfl)
      rw [hnone] at hsome
      cases hsome
  · rw [hrow'] at htouch
    cases hx : g.workflows.lookup id with
    | none =>
      rw [hx] at htouch
      cases htouch with
      | create => exact hmute.elim
    | some row =>
      rw [hx] at htouch
      refine ⟨row, rfl, htouch.same_deadline hauthored hlasting.resume ?_⟩
      rintro req rfl
      exact hmute

/-- **A call keeps the deadline of `id` to its first start, and tells it.** -/
theorem stamp_call (h : Stamp id t g first) (hauthored : Eff.Authored (.provider c))
    (hlasting : Lasting id t c g (call c now uuid g).2)
    (hfirst : first' = first.or (startedBy id (.provider c) (call c now uuid g).1 now)) :
    Stamp id t (call c now uuid g).2 first' ∧
      ∀ deadlineMs, (id, deadlineMs) ∈ learned (.provider c) (call c now uuid g).1 →
        Due t first' deadlineMs := by
  by_cases hmute : Mute c
  · rw [hmute.startedBy, or_none] at hfirst
    subst hfirst
    refine ⟨stamp_mute h hmute hauthored hlasting, fun _ htold => ?_⟩
    rw [hmute.learned] at htold
    cases htold
  · cases c with
    | insertWorkflowStatus status => exact stamp_insert h hauthored hlasting hfirst
    | dequeueWorkflows req => exact stamp_claim h hfirst
    | listWorkflows filter =>
      obtain rfl : first' = first := hfirst.trans or_none
      exact ⟨h, fun _ => due_of_listed h⟩
    | _ => exact absurd trivial hmute

end

/-! ## Engines over one store -/

/-- A task of an engine, with the deadlines it was told. -/
structure Runner where
  engine : Engine
  code : Stages Eff Answer (String × Option Int)
  known : List (String × Option Int)

/-- The world, with the first start of the watched workflow in milliseconds. -/
structure Stamped where
  world : World Inner
  first : Option Int

/-- The row of the watched workflow. -/
def Stamped.row (w : Stamped) (id : String) : Option WorkflowStatus :=
  w.world.store.workflows.lookup id

variable {t : Int}

section

variable [Serde DateTime] (X : TextCodec)

/-- The execution an effect starts. -/
def startedRunners (E : Engine) (e : Proc.Event Eff Answer (World Inner)) : List Runner :=
  match e.call with
  | .spawn id key input deadlineMs auth => match E.handler key with
    | some handler =>
      [⟨E, execution (provider X) E handler id input deadlineMs auth {} fun _ => .done, []⟩]
    | none => []
  | _ => []

/-- **Any number of engines** over one store, serving any requests; `id` is watched. -/
def timedEngines (id : String) :
    Threads Runner Stamped (Option (Proc.Event Eff Answer (World Inner))) where
  step t w e t' w' new := Stages.Step (provider X).handle t.code w.world e t'.code w'.world ∧
    t'.engine = t.engine ∧
    t'.known = e.elim t.known (fun ev => learned ev.call ev.answer ++ t.known) ∧
    w'.first = e.elim w.first
      (fun ev => w.first.or (startedBy id ev.call ev.answer ev.before.clock)) ∧
    new = e.elim [] (startedRunners X t.engine)
  start _ t := ∃ (E : Engine) (req : Request), req.Served E ∧ t = ⟨E, req.timed (provider X) E, []⟩
  env w w' := Tick w.world w'.world ∧ w'.first = w.first

/-- The calls of a step are lasting. -/
def LastingStep (id : String) (t : Int) (a : Pool Runner Stamped)
    (e : Pool.Happens Runner (Option (Proc.Event Eff Answer (World Inner))))
    (b : Pool Runner Stamped) : Prop :=
  ∀ p ev c, e = .ran p (some ev) → ev.call = .provider c →
    Lasting id t c a.world.world.store b.world.world.store

variable {X}

/-- The task knows and runs with no deadline of `id` but the one of its first start. -/
structure Punctual (id : String) (t : Int) (r : Runner) (w : Stamped) : Prop where
  informed : Informed r.code r.known
  known : ∀ deadlineMs, (id, deadlineMs) ∈ r.known → Due t w.first deadlineMs
  running : ∀ deadlineMs, r.code.name = some (id, deadlineMs) → Due t w.first deadlineMs

omit [Serde DateTime] in
theorem Due.or {t : Int} {first deadlineMs : Option Int} (h : Due t first deadlineMs)
    (later : Option Int) : Due t (first.or later) deadlineMs := by
  obtain ⟨at_ms, rfl, rfl⟩ := h
  exact ⟨at_ms, rfl, rfl⟩

omit [Serde DateTime] in
theorem Punctual.mono {id : String} {t : Int} {r : Runner} {w w' : Stamped} (h : Punctual id t r w)
    (hfirst : ∀ deadlineMs, Due t w.first deadlineMs → Due t w'.first deadlineMs) :
    Punctual id t r w' :=
  ⟨h.informed, fun dl hdl => hfirst dl (h.known dl hdl), fun dl hdl => hfirst dl (h.running dl hdl)⟩

omit [Serde DateTime] in
/-- Only a call of the backend starts a workflow or tells a deadline. -/
theorem stamp_handle {e : Eff} {w w' : World Inner} {r : Answer e} {first : Option Int}
    (h : Stamp id t w.store first) (hr : (provider X).handle e w r w') (hauthored : e.Authored)
    (hlasting : ∀ c, e = .provider c → Lasting id t c w.store w'.store)
    (hfirst : first' = first.or (startedBy id e r w.clock)) :
    Stamp id t w'.store first' ∧
      ∀ deadlineMs, (id, deadlineMs) ∈ learned e r → Due t first' deadlineMs := by
  cases e with
  | provider c =>
    obtain ⟨uuid, rfl, rfl⟩ := Provider.handle_provider.mp hr
    exact stamp_call h hauthored (hlasting c rfl) hfirst
  | _ =>
    obtain ⟨rfl, -⟩ | ⟨c, uuid, heq, -⟩ := handle_cases hr
    · obtain rfl : first' = first := hfirst.trans or_none
      exact ⟨h, fun _ htold => nomatch htold⟩
    · cases heq

/-- The executions a task starts run with the deadline of the first start. -/
theorem punctual_started {E : Engine} {w : Stamped} {ev : Proc.Event Eff Answer (World Inner)}
    (hknown : ∀ deadlineMs, (id, deadlineMs) ∈ known → Due t w.first deadlineMs)
    (hstarts : ∀ id deadlineMs, ev.call.Starts id deadlineMs → (id, deadlineMs) ∈ known) :
    ∀ r ∈ startedRunners X E ev, Punctual id t r w := by
  intro r hr
  unfold startedRunners at hr
  split at hr
  · next id' key input deadlineMs auth hcall =>
      split at hr
      · rw [mem_singleton.mp hr]
        refine ⟨?_, fun _ hdl => (nomatch hdl), ?_⟩
        · exact Stages.wp_single nofun
            (Proc.wp_mono (fun _ _ _ => trivial) (informs_runToCompletion {} []))
        · rintro _ ⟨rfl⟩
          exact hknown deadlineMs (hstarts _ _ ⟨key, input, auth, hcall⟩)
      · cases hr
  · cases hr

theorem keeps_deadline :
    Pool.Keeps (timedEngines X id) (LastingStep id t)
      (fun w => Stamp id t w.world.store w.first) (Punctual id t) where
  start := by
    rintro _ w ⟨E, req, -, rfl⟩ -
    refine ⟨informed_request req, fun _ hdl => (nomatch hdl), fun dl hdl => ?_⟩
    have hname : (req.timed (provider X) E).name = none := by cases req <;> rfl
    rw [hname] at hdl
    cases hdl
  env := by
    rintro w w' ⟨⟨hstore, -⟩, hfirst⟩ hstamp
    rw [hstore, hfirst]
    exact ⟨hstamp, fun r hr => hr.mono fun _ h => hfirst ▸ h⟩
  run := by
    rintro pre post new ⟨E, code, known⟩ ⟨E', code', known'⟩ w w' e
      ⟨hstep, -, hknown, hfirst, rfl⟩ hlasting hstamp ht
    dsimp only at hstep hknown
    subst hknown
    obtain ⟨hguar, hinformed, hname⟩ := informed_step hstep ht.informed
    -- Knowledge and stages that are there already stay due; what is new has been told.
    have hrunning (hkept : ∀ deadlineMs, Due t w.first deadlineMs → Due t w'.first deadlineMs) :
        ∀ deadlineMs, code'.name = some (id, deadlineMs) → Due t w'.first deadlineMs := by
      intro dl hdl
      rcases hname with hsame | htold
      · exact hkept dl (ht.running dl (hsame ▸ hdl))
      · exact hkept dl (ht.known dl (htold _ hdl))
    cases e with
    | none =>
      obtain ⟨world, first⟩ := w
      obtain ⟨world', first'⟩ := w'
      obtain rfl : first' = first := hfirst
      obtain rfl : world' = world := hstep.silent
      exact ⟨hstamp, ⟨hinformed, ht.known, hrunning fun _ h => h⟩, fun _ hn => (nomatch hn),
        fun _ _ h => h⟩
    | some ev =>
      obtain ⟨hbefore, -, hr⟩ := hstep.event
      obtain ⟨hauthored, hstarts⟩ := hguar ev rfl
      have hfirst' : w'.first = w.first.or (startedBy id ev.call ev.answer w.world.clock) := by
        rw [← hbefore]
        exact hfirst
      have hkept : ∀ deadlineMs, Due t w.first deadlineMs → Due t w'.first deadlineMs := by
        intro dl hdl
        rw [hfirst']
        exact hdl.or _
      obtain ⟨hstamp', htold⟩ := stamp_handle hstamp hr hauthored
        (fun c hc => hlasting _ ev c rfl hc) hfirst'
      refine ⟨hstamp', ⟨hinformed, fun dl hdl => ?_, hrunning hkept⟩, ?_, ?_⟩
      · rcases mem_append.mp hdl with hnew | hold
        · exact htold dl hnew
        · exact hkept dl (ht.known dl hold)
      · exact punctual_started (fun dl hdl => hkept dl (ht.known dl hdl)) hstarts
      · exact fun r _ hr => hr.mono hkept

/-- The first start of a workflow stays its first. -/
theorem first_run {at_ms : Int} {c c' : Pool Runner Stamped}
    (h : Pool.Run (timedEngines X id) (LastingStep id t) c c')
    (hfirst : c.world.first = some at_ms) : c'.world.first = some at_ms := by
  have hstep : ∀ a e b, Pool.Step (timedEngines X id) a e b → LastingStep id t a e b →
      a.world.first = some at_ms → b.world.first = some at_ms := by
    rintro a e b hs - ha
    cases hs with
    | @run pre post new r r' w w' l hstep =>
      obtain ⟨-, -, -, hnext, -⟩ := hstep
      change w.first = some at_ms at ha
      change w'.first = some at_ms
      rw [hnext, ha]
      cases l with
      | none => rfl
      | some ev => rfl
    | start => exact ha
    | lose => exact ha
    | env henv => exact henv.2.trans ha
  exact h.pool hstep hfirst

/-- **A workflow created with a timeout has one deadline**: that of its first start, on its row from
there on and in every execution of it.  The sum has to be a 64-bit number. -/
theorem deadline_fixed {id : String} {timeout : Duration} {w : World Inner}
    {c c' : Pool Runner Stamped} (hkeyed : WellKeyed w.store)
    (hnew : w.store.workflows.lookup id = none)
    (hrun : Pool.Run (timedEngines X id) (LastingStep id timeout.asMillis) ⟨⟨w, none⟩, []⟩ c)
    (hlater : Pool.Run (timedEngines X id) (LastingStep id timeout.asMillis) c c')
    (hfits : ∀ at_ms, c.world.first = some at_ms → FitsI64 (at_ms + timeout.millis)) :
    (∀ row, c.world.row id = some row → row.deadlineMs =
      c.world.first.map (· + (timeout.millis : Int))) ∧
    (∀ r ∈ c.threads, ∀ deadlineMs, r.code.name = some (id, deadlineMs) →
      ∃ at_ms, c.world.first = some at_ms ∧ deadlineMs = some (at_ms + timeout.millis)) ∧
    ∀ row row' deadline, c.world.row id = some row → row.deadlineMs = some deadline →
      c'.world.row id = some row' → row'.deadlineMs = some deadline := by
  have hstart : Stamp id timeout.asMillis w.store none := by
    refine ⟨hkeyed, fun _ => rfl, ?_, ?_, ?_⟩
    all_goals
      intro row hrow
      rw [hnew] at hrow
      cases hrow
  obtain ⟨hstamp, hpunctual⟩ := hrun.invariant keeps_deadline hstart (fun _ hr => nomatch hr)
  obtain ⟨hstamp', -⟩ := hlater.invariant keeps_deadline hstamp hpunctual
  have hsum {at_ms : Int} (hat : c.world.first = some at_ms) :
      i64 (at_ms + timeout.asMillis) = at_ms + timeout.millis := by
    rw [Duration.i64_add_asMillis, i64_of_fits (hfits at_ms hat)]
  refine ⟨fun row hrow => ?_, fun r hr deadlineMs hname => ?_, ?_⟩
  · rw [hstamp.deadline row hrow]
    cases hat : c.world.first with
    | none => rfl
    | some at_ms => exact congrArg some (hsum hat)
  · obtain ⟨at_ms, hat, rfl⟩ := (hpunctual r hr).running deadlineMs hname
    exact ⟨at_ms, hat, congrArg some (hsum hat)⟩
  · intro row row' deadline hrow hdeadline hrow'
    obtain ⟨at_ms, hat, rfl⟩ :=
      map_eq_some_iff.mp ((hstamp.deadline row hrow).symm.trans hdeadline)
    rw [hstamp'.deadline row' hrow', first_run hlater hat]
    rfl

variable {X : TextCodec} {id : String} {a : Pool Runner Stamped}
  {ok : Pool Runner Stamped → Pool.Happens Runner (Option (Proc.Event Eff Answer (World Inner))) →
    Pool Runner Stamped → Prop}
  {w : Stamped} {world : World Inner} {ts : List Runner} {β : Type} {E : Engine}
  {name : Option (String × Option Int)} {K : β → Stages Eff Answer (String × Option Int)}
  {known : List (String × Option Int)}

omit [Serde DateTime] in
theorem lastingStep_of {t : Int} {b : Pool Runner Stamped} {r : Runner}
    {ev : Proc.Event Eff Answer (World Inner)} (h : ∀ c, ev.call = .provider c →
      Lasting id t c a.world.world.store b.world.world.store) :
    LastingStep id t a (.ran r (some ev)) b := by
  intro _ _ c heq hc
  cases heq
  exact h c hc

theorem actTimed (h : Pool.Run (timedEngines X id) ok a ⟨w, ts⟩) (i : Nat) {e : Eff}
    {k : Answer e → Proc Eff Answer β} (ht : ts[i]? = some ⟨E, .stage name (.call e k) K, known⟩)
    (r : Answer e) (hr : (provider X).handle e w.world r world)
    (hok : let first := w.first.or (startedBy id e r w.world.clock)
      let ts' := ts.set i ⟨E, .stage name (k r) K, learned e r ++ known⟩ ++
        startedRunners X E ⟨e, w.world, r, world⟩
      ok ⟨w, ts⟩ (.ran ⟨E, .stage name (.call e k) K, known⟩ (some ⟨e, w.world, r, world⟩))
        ⟨⟨world, first⟩, ts'⟩) :
    Pool.Run (timedEngines X id) ok a ⟨⟨world, w.first.or (startedBy id e r w.world.clock)⟩,
      ts.set i ⟨E, .stage name (k r) K, learned e r ++ known⟩ ++
        startedRunners X E ⟨e, w.world, r, world⟩⟩ :=
  h.stepAt i ht ⟨.run (.call hr), rfl, rfl, rfl, rfl⟩ hok

theorem turnTimed (h : Pool.Run (timedEngines X id) ok a ⟨w, ts⟩) (i : Nat) {σ γ : Type}
    {body : σ → Proc Eff Answer (σ ⊕ γ)} {s : σ} {k : γ → Proc Eff Answer β}
    (ht : ts[i]? = some ⟨E, .stage name (.iter body s k) K, known⟩)
    (hok : ok ⟨w, ts⟩ (.ran ⟨E, .stage name (.iter body s k) K, known⟩ none)
      ⟨w, ts.set i ⟨E, .stage name ((body s).bind (Proc.again body k)) K, known⟩ ++ []⟩) :
    Pool.Run (timedEngines X id) ok a
      ⟨w, ts.set i ⟨E, .stage name ((body s).bind (Proc.again body k)) K, known⟩ ++ []⟩ :=
  h.stepAt i ht ⟨.run .unfold, rfl, rfl, rfl, rfl⟩ hok

end

section

/-- One workflow, which waits for something outside. -/
def bureau : Engine where
  registry := [("report", fun _ _ => .op (.outside Unit) fun _ => .done (.returned (.ok .null)))]
  appVersion := ""

attribute [local instance] serdeNanos

/-- `r` is started at 5 ms with a timeout. -/
theorem started_report (timeout : Duration) : ∃ c,
    Pool.Run (timedEngines noText "r") (LastingStep "r" timeout.asMillis)
      ⟨⟨⟨{}, ⟨5000000⟩⟩, none⟩, []⟩ c ∧ c.world.first = some 5 ∧
      ∃ r ∈ c.threads, r.code.name = some ("r", some (i64 (5 + timeout.asMillis))) := by
  have hstart : Pool.Run (timedEngines noText "r") (LastingStep "r" timeout.asMillis)
      ⟨⟨⟨{}, ⟨5000000⟩⟩, none⟩, []⟩ _ :=
    (Pool.Run.refl _).enter (t := ⟨bureau, _, []⟩) ⟨bureau, .start "" Unit "report" ()
      { workflowId := some "r", timeout := some timeout }, trivial, rfl⟩ (fun _ _ _ h => nomatch h)
  have hturned := turnTimed hstart 0 rfl (fun _ _ _ h => nomatch h)
  have hread := actTimed hturned 0 rfl _ ⟨rfl, rfl⟩ (lastingStep_of fun _ h => nomatch h)
  have hcreated := actTimed hread 0 rfl _ ⟨rfl, rfl⟩ (lastingStep_of fun _ h => nomatch h)
  have hinserted := actTimed hcreated 0 rfl _ told (lastingStep_of (by
    rintro c ⟨rfl⟩
    refine ⟨fun h => h, ?_, fun _ => rfl⟩
    rintro status ⟨rfl⟩ -
    exact ⟨rfl, rfl⟩))
  have hrunning := actTimed hinserted 0 rfl () rfl (lastingStep_of fun _ h => nomatch h)
  exact ⟨_, hrunning, rfl, _, mem_append_right _ (mem_singleton_self _), rfl⟩

/-- A timeout of 2 ms: `r` runs until 7 ms. -/
theorem deadline_fixed_report : ∃ c,
    Pool.Run (timedEngines noText "r") (LastingStep "r" 2) ⟨⟨⟨{}, ⟨5000000⟩⟩, none⟩, []⟩ c ∧
      c.world.first = some 5 ∧ (∃ r ∈ c.threads, r.code.name = some ("r", some 7)) ∧
      ∀ r ∈ c.threads, ∀ deadlineMs, r.code.name = some ("r", deadlineMs) →
        ∃ at_ms, c.world.first = some at_ms ∧ deadlineMs = some (at_ms + 2) := by
  obtain ⟨c, hrun, hfirst, hthread⟩ := started_report ⟨2000000⟩
  refine ⟨c, hrun, hfirst, hthread, (@deadline_fixed _ _ "r" ⟨2000000⟩ _ _ _ wellKeyed_empty rfl
    hrun (Pool.Run.refl _) fun at_ms hat => ?_).2.1⟩
  cases hfirst.symm.trans hat
  exact ⟨by decide, by decide⟩

/-- **The longest timeout is over before the workflow is created**: `Duration::MAX` is cut to minus
one millisecond. -/
theorem deadline_before_start : ∃ c,
    Pool.Run (timedEngines noText "r") (LastingStep "r" (⟨18446744073709551615999999999⟩ :
      Duration).asMillis) ⟨⟨⟨{}, ⟨5000000⟩⟩, none⟩, []⟩ c ∧
      c.world.first = some 5 ∧ ∃ r ∈ c.threads, r.code.name = some ("r", some 4) :=
  started_report ⟨18446744073709551615999999999⟩

end

end Memory

end Durare
