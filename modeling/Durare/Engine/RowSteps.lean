import Durare.Context.InMemory

/-!
# Engine/RowSteps — what a call can do to one workflow row

Every call of the in-memory backend, seen from one workflow id.  `Touch` lists the ways its row can
change — it is created, written, cancelled, resumed, put on a queue, counted, claimed, promoted,
deleted, or left alone — each with what the backend has checked, and `touch` says there are no
others.

The checks are few.  Only a completion is refused, and only on a cancelled row; putting a row on a
queue and counting a recovery ask nothing of its status.
-/

namespace Durare.Memory

open List Option

/-- Every row stands under its own id. -/
def WellKeyed (g : Inner) : Prop := ∀ id row, g.workflows.lookup id = some row → row.id = id

theorem wellKeyed_empty : WellKeyed {} := fun _ _ h => nomatch h

/-- The call cancels `id`, if it can be cancelled. -/
def Cancels (id : String) : ProviderCall → Prop
  | .cancelWorkflow id' => id' = id
  | .cancelWorkflows ids => id ∈ ids
  | _ => False

/-- The call resumes `id`, if it can be resumed. -/
def Resumes (id : String) : ProviderCall → Prop
  | .resumeWorkflow id' => id' = id
  | .resumeWorkflows ids => id ∈ ids
  | _ => False

/-- How a call can change the row of `id`. -/
inductive Touch (now : DateTime) (id : String) :
    ProviderCall → Option WorkflowStatus → Option WorkflowStatus → Prop where
  | keep {c : ProviderCall} {x : Option WorkflowStatus} : Touch now id c x x
  | create {status : WorkflowStatus} (hid : status.id = id) :
      Touch now id (.insertWorkflowStatus status) none (some status)
  | write {row : WorkflowStatus} {status : Status} {output : Option Value} {error : Option String}
      (h : ¬((status = .success ∨ status = .error) ∧ row.status = .cancelled)) :
      Touch now id (.setWorkflowStatus id status output error) (some row)
        (some (applyStatus now status output error row))
  | cancel {c : ProviderCall} {row : WorkflowStatus} (hc : Cancels id c)
      (h : row.status.isTerminal = false) : Touch now id c (some row) (some (cancelRow now row))
  | resume {c : ProviderCall} {row : WorkflowStatus} (hc : Resumes id c) (h : resumable row =
      true) : Touch now id c (some row) (some (resumeRow now row))
  | enqueue {row : WorkflowStatus} {queue : String} :
      Touch now id (.enqueueExisting id queue) (some row) (some (enqueueRow now queue row))
  | bump {row : WorkflowStatus} {max : Int} :
      Touch now id (.bumpRecoveryAttempts id max) (some row) (some (bumpRow now max row))
  | claim {row : WorkflowStatus} {req : DequeueRequest} (h : row.status = .enqueued) :
      Touch now id (.dequeueWorkflows req) (some row) (some (claimRow now req row))
  | promote {row : WorkflowStatus} {nowMs : Int} (h : row.status = .delayed) :
      Touch now id (.transitionDelayedWorkflows nowMs) (some row)
        (some { row with status := .enqueued, delayUntilMs := none, updatedAt := now })
  | delete {ids : List String} {children : Bool} {x : Option WorkflowStatus} :
      Touch now id (.deleteWorkflows ids children) x none

variable {g : Inner} {now : DateTime} {id : String}

/-! ## The calls that change rows -/

theorem touch_insert (status : WorkflowStatus) :
    Touch now id (.insertWorkflowStatus status) (g.workflows.lookup id)
      ((insertWorkflowStatus status g).2.workflows.lookup id) := by
  obtain ⟨_, _, -, -, -, heq⟩ | ⟨-, heq⟩ := insertWorkflowStatus_cases status g
  · rw [heq]
    exact .keep
  · rw [heq, insertWorkflowStatus.insert]
    split
    · exact .keep
    · next hnone =>
        by_cases hid : id = status.id
        · subst hid
          rw [hnone, AList.lookup_insert]
          exact .create rfl
        · rw [AList.lookup_insert_ne hid]
          exact .keep

theorem touch_setWorkflowStatus (id' : String) (status : Status) (output : Option Value)
    (error : Option String) :
    Touch now id (.setWorkflowStatus id' status output error) (g.workflows.lookup id)
      ((setWorkflowStatus now id' status output error g).2.workflows.lookup id) := by
  unfold setWorkflowStatus
  split
  · next row hrow =>
      split
      · exact .keep
      · next hguard =>
          by_cases hid : id = id'
          · subst hid
            rw [hrow, AList.lookup_insert]
            exact .write hguard
          · rw [AList.lookup_insert_ne hid]
            exact .keep
  · exact .keep

theorem cancelRow_idem (row : WorkflowStatus) :
    cancelRow now (cancelRow now row) = cancelRow now row := by
  have hcancelled : (cancelRow now row).status.isTerminal = true := by
    unfold cancelRow
    split
    · assumption
    · rfl
  exact if_pos hcancelled

variable {c : ProviderCall}

theorem touch_cancelRow (hc : Cancels id c) :
    Touch now id c (g.workflows.lookup id) ((g.workflows.lookup id).map (cancelRow now)) := by
  cases hrow : g.workflows.lookup id with
  | none => exact .keep
  | some row =>
    cases hterm : row.status.isTerminal with
    | true =>
      rw [map_some, cancelRow, if_pos hterm]
      exact .keep
    | false => exact .cancel hc hterm

theorem touch_cancelWorkflows (ids : List String) :
    Touch now id (.cancelWorkflows ids) (g.workflows.lookup id)
      ((cancelWorkflows now ids g).2.workflows.lookup id) := by
  unfold cancelWorkflows
  rw [AList.lookup_foldl_modify cancelRow_idem]
  by_cases hid : id ∈ ids
  · rw [if_pos hid]
    exact touch_cancelRow hid
  · rw [if_neg hid]
    exact .keep

theorem touch_cancelWorkflow (id' : String) :
    Touch now id (.cancelWorkflow id') (g.workflows.lookup id)
      ((cancelWorkflow now id' g).2.workflows.lookup id) := by
  change Touch now id _ _ ((g.workflows.modify id' (cancelRow now)).lookup id)
  by_cases hid : id = id'
  · subst hid
    rw [AList.lookup_modify_self]
    exact touch_cancelRow rfl
  · rw [AList.lookup_modify_ne _ _ hid]
    exact .keep

variable {x : Option WorkflowStatus}

theorem touch_resumeRow (hc : Resumes id c) :
    Touch now id c x (x.map fun row => if resumable row then resumeRow now row else row) := by
  cases x with
  | none => exact .keep
  | some row =>
    cases hres : resumable row with
    | true =>
      rw [map_some, if_pos hres]
      exact .resume hc hres
    | false =>
      rw [map_some, if_neg (by simp [hres])]
      exact .keep

theorem touch_resumeWorkflow (id' : String) :
    Touch now id (.resumeWorkflow id') (g.workflows.lookup id)
      ((resumeWorkflow now id' g).2.workflows.lookup id) := by
  unfold resumeWorkflow
  split
  · next row hrow =>
      split
      · next hres =>
          by_cases hid : id = id'
          · subst hid
            rw [hrow, AList.lookup_insert]
            exact .resume rfl hres
          · rw [AList.lookup_insert_ne hid]
            exact .keep
      · exact .keep
  · exact .keep

/-- Each listed row is resumed if it can be; a second mention makes no difference. -/
theorem lookup_resumeWorkflows (ids : List String) (g : Inner) :
    (resumeWorkflows now ids g).2.workflows.lookup id =
      if id ∈ ids then
        (g.workflows.lookup id).map fun row => if resumable row then resumeRow now row else row
      else g.workflows.lookup id := by
  induction ids generalizing g with
  | nil => rfl
  | cons id' ids ih =>
    have hagain (row : WorkflowStatus) : resumable (resumeRow now row) = true ∧
        resumeRow now (resumeRow now row) = resumeRow now row := ⟨rfl, rfl⟩
    unfold resumeWorkflows
    by_cases hid : id = id'
    · subst hid
      split
      · next row hrow =>
          split
          · next hres => by_cases hmem : id ∈ ids <;> simp [ih, hmem, hrow, hres, hagain]
          · next hres => by_cases hmem : id ∈ ids <;> simp [ih, hmem, hrow, hres]
      · next hrow => simp [ih, hrow]
    · split
      · split
        · simp [ih, hid]
        · simp [ih, hid]
      · simp [ih, hid]

theorem touch_resumeWorkflows (ids : List String) :
    Touch now id (.resumeWorkflows ids) (g.workflows.lookup id)
      ((resumeWorkflows now ids g).2.workflows.lookup id) := by
  rw [lookup_resumeWorkflows]
  by_cases hid : id ∈ ids
  · rw [if_pos hid]
    exact touch_resumeRow (c := .resumeWorkflows ids) hid
  · rw [if_neg hid]
    exact .keep

theorem touch_enqueueExisting (id' queue : String) :
    Touch now id (.enqueueExisting id' queue) (g.workflows.lookup id)
      ((enqueueExisting now id' queue g).2.workflows.lookup id) := by
  unfold enqueueExisting
  by_cases hid : id = id'
  · subst hid
    rw [AList.lookup_modify_self]
    cases g.workflows.lookup id with
    | none => exact .keep
    | some row => exact .enqueue
  · rw [AList.lookup_modify_ne _ _ hid]
    exact .keep

theorem touch_bumpRecoveryAttempts (id' : String) (max : Int) :
    Touch now id (.bumpRecoveryAttempts id' max) (g.workflows.lookup id)
      ((bumpRecoveryAttempts now id' max g).2.workflows.lookup id) := by
  unfold bumpRecoveryAttempts
  split
  · next row hrow =>
      by_cases hid : id = id'
      · subst hid
        rw [hrow, AList.lookup_insert]
        exact .bump
      · rw [AList.lookup_insert_ne hid]
        exact .keep
  · exact .keep

theorem claimRow_idem (req : DequeueRequest) (row : WorkflowStatus) :
    claimRow now req (claimRow now req row) = claimRow now req row := by
  cases hdl : row.deadlineMs <;> cases hto : row.timeoutMs <;> simp [claimRow, hdl, hto]

variable {req : DequeueRequest}

theorem claimable_of_mem_claimIds (hg : WellKeyed g) (h : id ∈ claimIds now req g) :
    ∃ row, g.workflows.lookup id = some row ∧ claimable req (isLatest req g) row = true := by
  simp only [claimIds, List.mem_map] at h
  obtain ⟨_, htake, rfl⟩ := h
  have hsorted := mem_mergeSort.mp (mem_of_mem_take htake)
  obtain ⟨row, hrow, rfl⟩ := mem_map.mp hsorted
  obtain ⟨hvalue, hclaim⟩ := mem_filter.mp hrow
  obtain ⟨k, hk⟩ := AList.mem_values.mp hvalue
  exact ⟨row, by rw [hg k row hk, hk], hclaim⟩

theorem enqueued_of_mem_claimIds (hg : WellKeyed g) (h : id ∈ claimIds now req g) :
    ∃ row, g.workflows.lookup id = some row ∧ row.status = .enqueued := by
  obtain ⟨row, hrow, hclaim⟩ := claimable_of_mem_claimIds hg h
  simp only [claimable, Bool.and_eq_true, decide_eq_true_eq] at hclaim
  exact ⟨row, hrow, hclaim.1.2⟩

theorem lookup_dequeueWorkflows (req : DequeueRequest) :
    (dequeueWorkflows now req g).2.workflows.lookup id =
      if id ∈ claimIds now req g then (g.workflows.lookup id).map (claimRow now req)
      else g.workflows.lookup id :=
  AList.lookup_foldl_modify (claimRow_idem req) id _ _

theorem length_claimIds_le (now : DateTime) (req : DequeueRequest) (g : Inner) :
    (claimIds now req g).length ≤ (claimBudget now req g).toNat := by
  rw [claimIds, length_map]
  exact length_take_le _ _

/-- The claims on candidates that stand in order already. -/
theorem claimIds_of_pairwise {req : DequeueRequest} {candidates : List (Int × Int × String)}
    (h : (g.workflows.values.filter (claimable req (isLatest req g))).map
      (fun w => (w.priority, w.createdAt.timestampMillis, w.id)) = candidates)
    (hsorted : candidates.Pairwise fun a b => claimLe a b = true) :
    claimIds now req g = (candidates.take (claimBudget now req g).toNat).map (·.2.2) := by
  rw [claimIds, h, mergeSort_of_pairwise hsorted]

/-! ## What a claim and a listing return -/

theorem claimIds_nodup (hg : WellKeyed g) (req : DequeueRequest) : (claimIds now req g).Nodup := by
  have hnodup : (g.workflows.values.map WorkflowStatus.id).Nodup := AList.nodup_map_values hg
  have hcandidates : (((g.workflows.values.filter (claimable req (isLatest req g))).map fun w =>
      (w.priority, w.createdAt.timestampMillis, w.id)).map (·.2.2)).Nodup := by
    rw [List.map_map]
    exact hnodup.sublist (filter_sublist.map _)
  rw [claimIds]
  refine List.Nodup.sublist ((take_sublist _ _).map _) ?_
  exact ((mergeSort_perm _ _).map _).nodup_iff.mpr hcandidates

theorem dequeueWorkflows_ids (hg : WellKeyed g) (req : DequeueRequest) :
    ∃ rows, (dequeueWorkflows now req g).1 = .ok rows ∧ rows.map (·.id) = claimIds now req g := by
  refine ⟨_, rfl, ?_⟩
  have hrow : ∀ id ∈ claimIds now req g, (((claimIds now req g).foldl
      (fun t id => t.modify id (claimRow now req)) g.workflows).lookup id).map
        (·.id) = some id := by
    intro id hid
    obtain ⟨row, hrow, -⟩ := claimable_of_mem_claimIds hg hid
    rw [AList.lookup_foldl_modify (claimRow_idem req), if_pos hid, hrow]
    exact congrArg some (hg id row hrow)
  rw [map_filterMap, filterMap_congr hrow, filterMap_some]

/-- A listing returns rows of the table that pass the filter, each at most once. -/
theorem listWorkflows_rows (filter : ListFilter) (g : Inner) : ∃ rows : List WorkflowStatus,
    (listWorkflows filter g).1 = .ok (rows.map (project filter)) ∧
      rows.Subperm (g.workflows.values.filter (passes filter
        (if filter.wasForkedFrom.isSome then g.workflows.values.filterMap (·.forkedFrom)
          else []))) := by
  let sources := if filter.wasForkedFrom.isSome then g.workflows.values.filterMap
    (·.forkedFrom) else []
  let sorted := (g.workflows.values.filter (passes filter sources)).mergeSort fun a b =>
    a.createdAt ≤ b.createdAt
  have hordered : (if filter.sortDesc then sorted.reverse else sorted).Subperm
      (g.workflows.values.filter (passes filter sources)) := by
    split
    · exact ((reverse_perm _).trans (mergeSort_perm _ _)).subperm
    · exact (mergeSort_perm _ _).subperm
  refine ⟨_, rfl, ?_⟩
  split
  · refine (take_sublist _ _).subperm.trans ?_
    split
    · exact (drop_sublist _ _).subperm.trans hordered
    · exact hordered
  · split
    · exact (drop_sublist _ _).subperm.trans hordered
    · exact hordered

variable {row : WorkflowStatus}

/-- A listed row is a row of the table with a status of the filter. -/
theorem listed_row {filter : ListFilter} {sources : List String} (hg : WellKeyed g)
    (h : row ∈ g.workflows.values.filter (passes filter sources)) :
    g.workflows.lookup row.id = some row ∧ anyOf filter.status row.status = true := by
  obtain ⟨hvalue, hpasses⟩ := mem_filter.mp h
  obtain ⟨k, hk⟩ := AList.mem_values.mp hvalue
  simp only [passes, Bool.and_eq_true] at hpasses
  exact ⟨by rw [hg k row hk, hk], by simp [hpasses]⟩

/-- The ids of a listing are those of rows with a status of the filter, none of them twice. -/
theorem listWorkflows_ids (hg : WellKeyed g) (filter : ListFilter) :
    ∃ rows, (listWorkflows filter g).1 = .ok rows ∧ (rows.map (·.id)).Nodup ∧
      ∀ id ∈ rows.map (·.id), ∃ row, g.workflows.lookup id = some row ∧
        anyOf filter.status row.status = true := by
  obtain ⟨rows, hlist, hsub⟩ := listWorkflows_rows filter g
  have hproject : (rows.map (project filter)).map (·.id) = rows.map (·.id) := by
    rw [List.map_map]
    rfl
  refine ⟨_, hlist, ?_⟩
  rw [hproject]
  have hvalues : (g.workflows.values.map WorkflowStatus.id).Nodup := AList.nodup_map_values hg
  constructor
  · obtain ⟨listed, hperm, hsublist⟩ := hsub.trans filter_sublist.subperm
    exact (hperm.map _).nodup_iff.mp (hvalues.sublist (hsublist.map _))
  · intro id hid
    obtain ⟨row, hrow, rfl⟩ := mem_map.mp hid
    exact ⟨row, listed_row hg (hsub.subset hrow)⟩

theorem touch_dequeueWorkflows (hg : WellKeyed g) (req : DequeueRequest) :
    Touch now id (.dequeueWorkflows req) (g.workflows.lookup id)
      ((dequeueWorkflows now req g).2.workflows.lookup id) := by
  rw [lookup_dequeueWorkflows]
  by_cases hid : id ∈ claimIds now req g
  · obtain ⟨row, hrow, henq⟩ := enqueued_of_mem_claimIds hg hid
    rw [if_pos hid, hrow]
    exact .claim henq
  · rw [if_neg hid]
    exact .keep

theorem touch_transitionDelayedWorkflows (nowMs : Int) :
    Touch now id (.transitionDelayedWorkflows nowMs) (g.workflows.lookup id)
      ((transitionDelayedWorkflows now nowMs g).2.workflows.lookup id) := by
  unfold transitionDelayedWorkflows
  rw [AList.lookup_mapRows]
  cases g.workflows.lookup id with
  | none => exact .keep
  | some row =>
    rw [map_some]
    split
    · next hdue =>
        simp only [Bool.and_eq_true, decide_eq_true_eq] at hdue
        exact .promote hdue.1
    · exact .keep

theorem touch_retain {ids : List String} {children : Bool} (kept : String → Bool) :
    Touch now id (.deleteWorkflows ids children) (g.workflows.lookup id)
      ((g.workflows.retain kept).lookup id) := by
  rw [AList.lookup_retain]
  split
  · exact .keep
  · exact .delete

/-! ## Every call -/

theorem Touch.of_eq {t t' : Table String WorkflowStatus} (h : t' = t) :
    Touch now id c (t.lookup id) (t'.lookup id) := h ▸ .keep

theorem workflows_writeStream (wf key : String) (value : Option Value) :
    (writeStream wf key value g).2.workflows = g.workflows := by
  simp only [writeStream]
  split <;> rfl

theorem workflows_insertNotification (uuid dest topic : String) (message : Value)
    (key : Option String) :
    (insertNotification now uuid dest topic message key g).2.workflows = g.workflows := by
  unfold insertNotification
  split
  · rfl
  · cases key with
    | none => rfl
    | some k =>
      dsimp only
      split <;> rfl

theorem workflows_consumeNotification (wf topic name : String) (seq : Int) :
    (consumeNotification wf topic seq name g).2.workflows = g.workflows := by
  unfold consumeNotification
  split <;> rfl

/-- **What a call can do to a row.** -/
theorem touch (hg : WellKeyed g) (c : ProviderCall) (uuid : String) :
    Touch now id c (g.workflows.lookup id) ((call c now uuid g).2.workflows.lookup id) := by
  cases c with
  | insertWorkflowStatus status => exact touch_insert status
  | setWorkflowStatus id' status output error =>
    exact touch_setWorkflowStatus id' status output error
  | cancelWorkflow id' => exact touch_cancelWorkflow id'
  | cancelWorkflows ids => exact touch_cancelWorkflows ids
  | resumeWorkflow id' => exact touch_resumeWorkflow id'
  | resumeWorkflows ids => exact touch_resumeWorkflows ids
  | enqueueExisting id' queue => exact touch_enqueueExisting id' queue
  | bumpRecoveryAttempts id' max => exact touch_bumpRecoveryAttempts id' max
  | dequeueWorkflows req => exact touch_dequeueWorkflows hg req
  | transitionDelayedWorkflows nowMs => exact touch_transitionDelayedWorkflows nowMs
  | deleteWorkflows ids children => exact touch_retain _
  | writeStream wf key value seq => exact .of_eq (workflows_writeStream wf key value)
  | insertNotification dest topic message key =>
    exact .of_eq (workflows_insertNotification uuid dest topic message key)
  | consumeNotification wf topic seq name =>
    exact .of_eq (workflows_consumeNotification wf topic name seq)
  | getWorkflowStatus _ | getStepResult _ _ | recordStepResult _ _ _ _ _ _ | upsertEvent _ _ _
  | getEventValue _ _ | recordChildWorkflow _ _ _ _ | checkChildWorkflow _ _ | getStepName _ _
  | recordPatch _ _ _ | queuePartitions _ | listWorkflows _ | getDeduplicatedWorkflow _ _ =>
    exact .keep

theorem lookup_of_resumes {uuid : String} (hc : Resumes id c)
    (hrow : g.workflows.lookup id = some row) (hres : resumable row = true) :
    (call c now uuid g).2.workflows.lookup id = some (resumeRow now row) := by
  cases c with
  | resumeWorkflow id' =>
    obtain rfl : id' = id := hc
    simp [call, resumeWorkflow, hrow, hres]
  | resumeWorkflows ids =>
    have hmem : id ∈ ids := hc
    simp [call, lookup_resumeWorkflows, hmem, hrow, hres]
  | _ => exact False.elim hc

@[simp] theorem cancelRow_id (row : WorkflowStatus) : (cancelRow now row).id = row.id := by
  unfold cancelRow
  split <;> rfl

@[simp] theorem bumpRow_id (max : Int) (row : WorkflowStatus) :
    (bumpRow now max row).id = row.id := by
  simp only [bumpRow]
  split <;> rfl

theorem Touch.id_eq {row' : WorkflowStatus} (h : Touch now id c x (some row'))
    (hx : ∀ row, x = some row → row.id = id) : row'.id = id := by
  cases h with
  | keep => exact hx row' rfl
  | create hid => exact hid
  | @write row | @resume _ row | @enqueue row | @claim row | @promote row => exact hx row rfl
  | @cancel _ row => rw [cancelRow_id, hx row rfl]
  | @bump row => rw [bumpRow_id, hx row rfl]

theorem wellKeyed_call (hg : WellKeyed g) (c : ProviderCall) (uuid : String) :
    WellKeyed (call c now uuid g).2 := by
  intro id row hrow
  have htouch : Touch now id c _ _ := touch hg c uuid
  rw [hrow] at htouch
  exact htouch.id_eq (hg id)

variable {w' : World Inner}

/-- Only a call of the backend changes the store, and no effect moves the clock. -/
theorem handle_cases {X : TextCodec} {e : Eff} {w : World Inner} {r : Answer e}
    (h : (provider X).handle e w r w') :
    (w' = w ∧ ∀ c, e ≠ .provider c) ∨
      ∃ c uuid, e = .provider c ∧ w' = ⟨(call c w.clock uuid w.store).2, w.clock⟩ := by
  cases e with
  | provider c =>
    obtain ⟨uuid, -, hw'⟩ := Provider.handle_provider.mp h
    exact .inr ⟨c, uuid, rfl, hw'⟩
  | sql q => exact nomatch h.1
  | utcNow | produceNow seq | race T seq n | elapsed deadline =>
    exact .inl ⟨h.2, fun _ heq => nomatch heq⟩
  | produceUuid _ | closure _ _ | sleep _ | awaitChange _ _ | spawn _ _ _ _ _ | outside _
  | isCancelled | localRunning _ _ => exact .inl ⟨h, fun _ heq => nomatch heq⟩

theorem wellKeyed_handle {X : TextCodec} {e : Eff} {w : World Inner} {r : Answer e}
    (hg : WellKeyed w.store) (h : (provider X).handle e w r w') : WellKeyed w'.store := by
  obtain ⟨rfl, -⟩ | ⟨c, uuid, -, rfl⟩ := handle_cases h
  · exact hg
  · exact wellKeyed_call hg c uuid

end Durare.Memory
