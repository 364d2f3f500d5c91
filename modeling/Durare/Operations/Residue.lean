import Durare.Operations.Deduplication
import Durare.Operations.StepLog

/-!
# Operations/Residue — what a deleted workflow leaves behind

A workflow's data is spread over four tables besides its row.  A delete clears its steps, its
streams and its messages, but not its events; and an execution of the deleted workflow that is still
running goes on recording steps, events and stream values, since none of these methods looks for a
row.  Either way a workflow that is later created under the same id finds data that it did not
write.

A `Place` is one thing that can be read under an id.  `reads_only_new`: if events are gone before a
delete, and nobody writes under the id while it has no row, then whatever is read at a place has
been stored there since the id was last without a row.
-/

namespace Durare.Memory

open List Option

/-! ## Places -/

/-- Something that is read under the id of a workflow. -/
inductive Place where
  | step (seq : Int)
  | event (key : String)
  | stream (key : String)
  | mailbox (topic : String)

/-- A read of the place returns something: `get_step_result`, `get_event_value` or
`list_workflow_events`, `read_stream`, `consume_notification`. -/
def Place.Read (id : String) : Place → Inner → Prop
  | step seq, g => (getStepResult id seq g).1 ≠ .ok none
  | event key, g => (getEventValue id key g).1 ≠ .ok none ∨
      ∃ events value, (listWorkflowEvents id g).1 = .ok events ∧ (key, value) ∈ events
  | stream key, g => ∃ fromOffset, (readStream id key fromOffset g).1 ≠ .ok ([], false)
  | mailbox topic, g => ∃ seq stepName, (consumeNotification id topic seq stepName g).1 ≠ .ok none

/-- Something is stored at the place. -/
def Place.Occupied (id : String) : Place → Inner → Prop
  | step seq, g => (g.steps.lookup (id, seq)).isSome
  | event key, g => (g.events.lookup (id, key)).isSome
  | stream key, g => (g.streams.lookup (id, key)).getD [] ≠ []
  | mailbox topic, g => ∃ n ∈ g.notifications,
      n.destinationId = id ∧ n.topic = topic ∧ n.consumed = false

namespace Operation

/-- The operation stores something at a place of `id`. -/
def Stores (id : String) : Operation → Place → Inner → Prop
  | call (.recordStepResult id' seq _ _ _ _), .step seq', _
  | call (.recordChildWorkflow id' seq _ _), .step seq', _
  | call (.recordPatch id' seq _), .step seq', _ => id' = id ∧ seq' = seq
  -- A message is claimed and recorded as a step.
  | call (.consumeNotification id' topic seq _), .step seq', g =>
    id' = id ∧ seq' = seq ∧ (oldest g.notifications id topic).isSome
  -- A message to a workflow without a row is refused.
  | call (.insertNotification dest topic _ _), .mailbox topic', g =>
    dest = id ∧ topic' = topic ∧ (g.workflows.lookup id).isSome
  | call (.upsertEvent id' key _), .event key', _ => id' = id ∧ key' = key
  | call (.writeStream id' key _ _), .stream key', _ => id' = id ∧ key' = key
  | forkWorkflow params, .step _, g =>
    params.newId = id ∧ (g.workflows.lookup params.originalId).isSome
  | importWorkflow workflows, _, g => existingId workflows g = none ∧ ∃ wf ∈ workflows, wf.id = id
  | _, _, _ => False

/-- The operation writes under `id` without a look at its row. -/
def WritesUnder (id : String) : Operation → Prop
  | call (.recordStepResult id' _ _ _ _ _) | call (.recordChildWorkflow id' _ _ _)
  | call (.recordPatch id' _ _) | call (.upsertEvent id' _ _) | call (.writeStream id' _ _ _) =>
    id' = id
  | _ => False

/-- What leaves no residue of `id`: nothing is written under it while it has no row, and its events
are gone before it is deleted. -/
structure Tidy (id : String) (op : Operation) (g : Inner) : Prop where
  absent : g.workflows.lookup id = none → ¬op.WritesUnder id
  deleted : op.Deletes id g → ∀ key, g.events.lookup (id, key) = none

end Operation

variable {X : TextCodec} {now : DateTime} {uuid id : String} {g g' : Inner} {p : Place}

/-! ## Reads -/

theorem untilClosed_ne {entries : List (Option Value)} (h : entries ≠ []) :
    untilClosed entries ≠ ([], false) := by
  cases entries with
  | nil => exact absurd rfl h
  | cons entry entries =>
    cases entry with
    | none => simp [untilClosed]
    | some v => simp [untilClosed]

variable {l : List NotificationRow} {topic : String}

theorem isSome_oldest :
    (oldest l id topic).isSome = true ↔
      ∃ n ∈ l, n.destinationId = id ∧ n.topic = topic ∧ n.consumed = false := by
  constructor
  · intro h
    obtain ⟨⟨n, i⟩, hn⟩ := isSome_iff_exists.mp h
    obtain ⟨hmem, hconsumed, hid, htopic⟩ := oldest_mem hn
    exact ⟨n, mem_of_getElem? hmem, hid, htopic, hconsumed⟩
  · rintro ⟨n, hn, rfl, rfl, hconsumed⟩
    obtain ⟨i, hi⟩ := mem_iff_getElem?.mp hn
    refine List.isSome_minOn?_iff.mpr (List.ne_nil_of_mem (a := (n, i)) ?_)
    rw [mem_filter]
    exact ⟨mk_mem_zipIdx_iff_getElem?.mpr hi, by simp [hconsumed]⟩

variable {key : String}

theorem mem_listWorkflowEvents {value : Value} {events : List (String × Value)}
    (h : (listWorkflowEvents id g).1 = .ok events) :
    (key, value) ∈ events ↔ g.events.lookup (id, key) = some value := by
  cases h
  rw [List.mem_mergeSort, List.mem_map]
  constructor
  · rintro ⟨⟨⟨id', key'⟩, value'⟩, hmem, heq⟩
    cases heq
    obtain ⟨hentry, hid⟩ := mem_filter.mp hmem
    have hid' : id' = id := of_decide_eq_true hid
    subst hid'
    exact (mem_dlookup_iff g.events.nodupKeys).mpr hentry
  · intro hlookup
    exact ⟨⟨(id, key), value⟩, mem_filter.mpr
      ⟨(mem_dlookup_iff g.events.nodupKeys).mp hlookup, decide_eq_true rfl⟩, rfl⟩

/-- **A read returns something where something is stored**, and nowhere else. -/
theorem Place.read_iff : p.Read id g ↔ p.Occupied id g := by
  cases p with
  | step seq => simp [Read, Occupied, getStepResult, isSome_iff_ne_none]
  | event key =>
    have hvalue : (getEventValue id key g).1 ≠ .ok none ↔ (g.events.lookup (id, key)).isSome := by
      simp [getEventValue, isSome_iff_ne_none]
    constructor
    · rintro (h | ⟨events, value, hevents, hmem⟩)
      · exact hvalue.mp h
      · exact isSome_iff_exists.mpr ⟨value, (mem_listWorkflowEvents hevents).mp hmem⟩
    · exact fun h => .inl (hvalue.mpr h)
  | stream key =>
    constructor
    · rintro ⟨fromOffset, h⟩ hempty
      refine h ?_
      simp [readStream, hempty, untilClosed]
    · intro h
      refine ⟨0, fun hread => untilClosed_ne h ?_⟩
      simpa [readStream] using hread
  | mailbox topic =>
    refine Iff.trans ?_ isSome_oldest
    cases ho : oldest g.notifications id topic with
    | none => simp [Read, consumeNotification, ho]
    | some n => simp [Read, consumeNotification, ho]

/-! ## What an operation stores -/

theorem Place.occupied_congr (h : SameFiles g g') : p.Occupied id g' ↔ p.Occupied id g := by
  cases p <;> simp only [Occupied, h.steps, h.notifications, h.events, h.streams]

/-- A message that is not consumed was there before another was. -/
theorem mem_markConsumed {i : Nat} {n : NotificationRow} (hn : n ∈ markConsumed l i)
    (hconsumed : n.consumed = false) : n ∈ l := by
  obtain ⟨j, hj⟩ := mem_iff_getElem?.mp hn
  rw [markConsumed, getElem?_modify] at hj
  obtain ⟨m, hm, rfl⟩ := map_eq_some_iff.mp hj
  split at hconsumed
  · cases hconsumed
  · next hij =>
      rw [if_neg hij]
      exact mem_of_getElem? hm

variable {ids : List String}

/-- What a delete leaves: what was stored before, and of the workflows it deletes only events. -/
theorem Place.occupied_delete {children : Bool} :
    p.Occupied id (deleteWorkflows ids children g).2 ↔
      p.Occupied id g ∧ ((∃ key, p = .event key) ∨ id ∉ deleteTargets ids children g) := by
  cases p with
  | step seq =>
    rw [Occupied, steps_deleteWorkflows, AList.lookup_retain]
    by_cases hid : id ∈ deleteTargets ids children g
    · simp [hid]
    · simp [Occupied, hid]
  | event key => exact ⟨fun h => ⟨h, .inl ⟨key, rfl⟩⟩, fun h => h.1⟩
  | stream key =>
    change ((g.streams.retain fun k => !(deleteTargets ids children g).contains k.1).lookup
      (id, key)).getD [] ≠ [] ↔ _
    rw [AList.lookup_retain]
    by_cases hid : id ∈ deleteTargets ids children g
    · simp [hid]
    · simp [Occupied, hid]
  | mailbox topic =>
    change (∃ n ∈ g.notifications.filter fun n =>
      !(deleteTargets ids children g).contains n.destinationId, _) ↔ _
    simp only [mem_filter, Occupied]
    constructor
    · rintro ⟨n, ⟨hn, hspared⟩, rfl, hrest⟩
      exact ⟨⟨n, hn, rfl, hrest⟩, .inr (by simpa using hspared)⟩
    · rintro ⟨⟨n, hn, rfl, hrest⟩, ⟨key, hkey⟩ | hspared⟩
      · cases hkey
      · exact ⟨n, ⟨hn, by simpa using hspared⟩, rfl, hrest⟩

theorem Place.occupied_record {key : String × Int} {row : StepRow}
    (h : p.Occupied id { g with steps := g.steps.insertNew key row }) :
    p.Occupied id g ∨ key.1 = id ∧ p = .step key.2 := by
  cases p with
  | step seq =>
    by_cases hkey : (id, seq) = key
    · subst hkey
      exact .inr ⟨rfl, rfl⟩
    · rw [Occupied, AList.lookup_insertNew_ne _ _ hkey] at h
      exact .inl h
  | event | stream | mailbox => exact .inl h

theorem Place.occupied_insertNotification {dest : String} {message : Value} {key : Option String}
    (h : p.Occupied id (insertNotification now uuid dest topic message key g).2) :
    p.Occupied id g ∨
      dest = id ∧ p = .mailbox topic ∧ (g.workflows.lookup id).isSome = true := by
  obtain ⟨-, heq⟩ | ⟨-, -, heq⟩ | ⟨hdest, -, heq⟩ :=
    insertNotification_cases now uuid dest topic message key g
  all_goals rw [heq] at h
  · exact .inl h
  · exact .inl h
  · cases p with
    | step | event | stream => exact .inl h
    | mailbox topic' =>
      obtain ⟨n, hn, hid, htopic, hconsumed⟩ := h
      rcases mem_append.mp hn with hn | hn
      · exact .inl ⟨n, hn, hid, htopic, hconsumed⟩
      · cases mem_singleton.mp hn
        subst hid htopic
        exact .inr ⟨rfl, rfl, hdest⟩

variable {id' : String}

theorem Place.occupied_consumeNotification {name : String} {seq : Int}
    (h : p.Occupied id (consumeNotification id' topic seq name g).2) :
    p.Occupied id g ∨
      id' = id ∧ p = .step seq ∧ (oldest g.notifications id topic).isSome = true := by
  unfold consumeNotification at h
  split at h
  · exact .inl h
  · next n i hn =>
      have hrecord := Place.occupied_record
        (g := { g with notifications := markConsumed g.notifications i }) h
      rcases hrecord with hbefore | ⟨rfl, rfl⟩
      · refine .inl ?_
        cases p with
        | step | event | stream => exact hbefore
        | mailbox topic' =>
          obtain ⟨n, hn, hid, htopic, hconsumed⟩ := hbefore
          exact ⟨n, mem_markConsumed hn hconsumed, hid, htopic, hconsumed⟩
      · exact .inr ⟨rfl, rfl, by rw [hn]; rfl⟩

theorem Place.occupied_upsertEvent {value : Value} (h :
    p.Occupied id (upsertEvent id' key value g).2) :
    p.Occupied id g ∨ id' = id ∧ p = .event key := by
  cases p with
  | step | stream | mailbox => exact .inl h
  | event key' =>
    by_cases hkey : (id, key') = (id', key)
    · cases hkey
      exact .inr ⟨rfl, rfl⟩
    · refine .inl ?_
      rw [Occupied, upsertEvent, AList.lookup_insert_ne hkey] at h
      exact h

theorem Place.occupied_writeStream {value : Option Value}
    (h : p.Occupied id (writeStream id' key value g).2) :
    p.Occupied id g ∨ id' = id ∧ p = .stream key := by
  cases p with
  | step | event | mailbox =>
    refine .inl ?_
    unfold writeStream at h
    dsimp only at h
    split at h
    · exact h
    · exact h
  | stream key' =>
    by_cases hkey : (id, key') = (id', key)
    · cases hkey
      exact .inr ⟨rfl, rfl⟩
    · refine .inl ?_
      unfold writeStream at h
      dsimp only at h
      split at h
      · rw [Occupied, AList.lookup_insertNew_ne _ _ hkey] at h
        exact h
      · rw [Occupied, AList.lookup_insert_ne hkey] at h
        exact h

theorem Place.occupied_call {c : ProviderCall} (hstores : ¬(Operation.call c).Stores id p g)
    (h : p.Occupied id (call c now uuid g).2) : p.Occupied id g := by
  by_cases hc : Files c
  · cases c with
    | recordStepResult | recordChildWorkflow | recordPatch =>
      refine (Place.occupied_record h).resolve_right ?_
      rintro ⟨hid, rfl⟩
      exact hstores ⟨hid, rfl⟩
    | consumeNotification id' topic seq name =>
      refine (Place.occupied_consumeNotification h).resolve_right ?_
      rintro ⟨hid, rfl, hletter⟩
      exact hstores ⟨hid, rfl, hletter⟩
    | insertNotification dest topic message key =>
      refine (Place.occupied_insertNotification h).resolve_right ?_
      rintro ⟨hid, rfl, hrow⟩
      exact hstores ⟨hid, rfl, hrow⟩
    | upsertEvent id' key value =>
      refine (Place.occupied_upsertEvent h).resolve_right ?_
      rintro ⟨hid, rfl⟩
      exact hstores ⟨hid, rfl⟩
    | writeStream id' key value seq =>
      refine (Place.occupied_writeStream h).resolve_right ?_
      rintro ⟨hid, rfl⟩
      exact hstores ⟨hid, rfl⟩
    | deleteWorkflows ids children => exact (Place.occupied_delete.mp h).1
    | _ => exact hc.elim
  · exact (Place.occupied_congr (sameFiles_call hc)).mp h

theorem Place.occupied_fork {params : ForkParams}
    (hstores : ¬(Operation.forkWorkflow params).Stores id p g)
    (h : p.Occupied id (forkWorkflow now params g).2) : p.Occupied id g := by
  unfold forkWorkflow at h
  split at h
  · exact h
  · next original horiginal =>
      cases p with
      | event | stream | mailbox => exact h
      | step seq =>
        have hid : id ≠ params.newId := by
          rintro rfl
          exact hstores ⟨rfl, by rw [horiginal]; rfl⟩
        rw [Occupied, lookup_insertAll_of_ne (ne_of_mem_copiedSteps hid)] at h
        exact h

variable {workflows : List ExportedWorkflow}

theorem lookup_insertAll_other {κ α β : Type} [DecidableEq κ] {id' : String} (h : id' ≠ id)
    {rows : List β} {f : β → (String × κ) × α} (hf : ∀ b, (f b).1.1 = id') (k : κ)
    (t : Table (String × κ) α) : (insertAll t (rows.map f)).lookup (id, k) = t.lookup (id, k) := by
  refine lookup_insertAll_of_ne (fun entry hentry heq => ?_) t
  obtain ⟨b, -, rfl⟩ := mem_map.mp hentry
  exact h ((hf b).symm.trans (congrArg Prod.fst heq).symm)

theorem Place.occupied_imports (hid : ∀ wf ∈ workflows, wf.id ≠ id)
    (h : p.Occupied id (workflows.foldl (importOne X now) g)) : p.Occupied id g := by
  induction workflows generalizing g with
  | nil => exact h
  | cons wf workflows ih =>
    have hone := ih (fun wf' hwf' => hid wf' (mem_cons_of_mem _ hwf')) h
    have hother := hid wf mem_cons_self
    cases p with
    | step seq => rwa [Occupied, importOne, lookup_insertAll_other hother fun _ => rfl] at hone
    | event key => rwa [Occupied, importOne, lookup_insertAll_other hother fun _ => rfl] at hone
    | stream key =>
      rwa [Occupied, importOne, importedStreams, lookup_insertAll_other hother fun _ => rfl] at hone
    | mailbox topic => exact hone

theorem Place.occupied_import (hstores : ¬(Operation.importWorkflow workflows).Stores id p g)
    (h : p.Occupied id (importWorkflow X now workflows g).2) : p.Occupied id g := by
  unfold importWorkflow at h
  split at h
  · exact h
  · next hexisting =>
      refine Place.occupied_imports (fun wf hwf hid => hstores ?_) h
      cases p with
      | step | event | stream | mailbox => exact ⟨hexisting, wf, hwf, hid⟩

variable {op : Operation}

/-- **Nothing appears at a place unless an operation stores it there.** -/
theorem Place.occupied_run (hstores : ¬op.Stores id p g) (h : p.Occupied id (op.run X now uuid g)) :
    p.Occupied id g := by
  cases op with
  | call c => exact Place.occupied_call hstores h
  | forkWorkflow params => exact Place.occupied_fork hstores h
  | importWorkflow workflows => exact Place.occupied_import hstores h
  | garbageCollect cutoff threshold =>
    have hdelete : p.Occupied id (garbageCollect cutoff threshold g).2 := h
    rw [garbageCollect_state] at hdelete
    exact (Place.occupied_delete.mp hdelete).1
  | setWorkflowDelay | createApplicationVersion | setLatestApplicationVersion =>
    refine (Place.occupied_congr (sameFiles_run ?_)).mp h
    exact not_false

/-! ## Deletes -/

theorem Operation.Deletes.run {op : Operation} (h : op.Deletes id g) :
    ∃ ids children, op.run X now uuid g = (deleteWorkflows ids children g).2 ∧
      id ∈ deleteTargets ids children g := by
  cases op with
  | call c =>
    cases c with
    | deleteWorkflows ids children => exact ⟨ids, children, rfl, h⟩
    | _ => exact h.elim
  | garbageCollect cutoff threshold => exact ⟨_, false, garbageCollect_state cutoff threshold g, h⟩
  | _ => exact h.elim

/-- A row goes only when it is deleted. -/
theorem Operation.deletes_of_gone (hg : WellKeyed g) {row : WorkflowStatus}
    (hrow : g.workflows.lookup id = some row)
    (hgone : (op.run X now uuid g).workflows.lookup id = none) : op.Deletes id g := by
  have hspared {ids : List String} {children : Bool}
      (h : (deleteWorkflows ids children g).2.workflows.lookup id = none) :
      id ∈ deleteTargets ids children g := by
    rw [workflows_deleteWorkflows, AList.lookup_retain, hrow] at h
    simpa using h
  have htouch : Touches X now id op _ _ := touches hg op uuid
  rw [hrow, hgone] at htouch
  cases htouch with
  | call h =>
    cases h with
    | delete => exact hspared hgone
  | collect =>
    have hcollected : (Memory.garbageCollect _ _ g).2.workflows.lookup id = none := hgone
    rw [garbageCollect_state] at hcollected
    exact hspared hcollected

/-- While the id has no row, nothing is stored under it. -/
def Cleared (id : String) (g : Inner) : Prop :=
  g.workflows.lookup id = none → ∀ p : Place, ¬p.Occupied id g

/-- A delete after the events are gone leaves nothing. -/
theorem cleared_delete {children : Bool} (hid : id ∈ deleteTargets ids children g)
    (hevents : ∀ key, g.events.lookup (id, key) = none) :
    Cleared id (deleteWorkflows ids children g).2 := by
  intro _ p hp
  rw [Place.occupied_delete] at hp
  rcases hp with ⟨hbefore, ⟨key, rfl⟩ | hspared⟩
  · rw [Place.Occupied, hevents key] at hbefore
    cases hbefore
  · exact hspared hid

theorem isSome_imports {wf : ExportedWorkflow} (hwf : wf ∈ workflows) :
    ((workflows.foldl (importOne X now) g).workflows.lookup wf.id).isSome = true := by
  induction workflows generalizing g with
  | nil => cases hwf
  | cons first workflows ih =>
    rw [foldl_cons]
    rcases mem_cons.mp hwf with rfl | hwf
    · rcases lookup_imports X now wf.id workflows (importOne X now g wf) with
        hkeep | ⟨_, -, -, hrow⟩
      · have hrow : (importOne X now g wf).workflows.lookup wf.id =
            some (mapToStatus X now wf.workflowStatus) := AList.lookup_insert _
        rw [hkeep, hrow]
        rfl
      · rw [hrow]
        rfl
    · exact ih hwf

/-- What is stored under an id without a row, when nothing was, is an orphan, or it comes with a
row. -/
theorem Operation.Stores.absent (hstores : op.Stores id p g) (hrow : g.workflows.lookup id = none)
    (hclear : ∀ p : Place, ¬p.Occupied id g) :
    op.WritesUnder id ∨ (op.run X now uuid g).workflows.lookup id ≠ none := by
  cases op with
  | call c =>
    cases c with
    | recordStepResult | recordChildWorkflow | recordPatch | upsertEvent | writeStream =>
      cases p <;> first | exact .inl hstores.1 | exact hstores.elim
    | consumeNotification id' topic seq name =>
      cases p with
      | step seq' => exact absurd (isSome_oldest.mp hstores.2.2) (hclear (.mailbox topic))
      | event | stream | mailbox => exact hstores.elim
    | insertNotification dest topic message key =>
      cases p with
      | mailbox topic' =>
        have hsome := hstores.2.2
        rw [hrow] at hsome
        cases hsome
      | step | event | stream => exact hstores.elim
    | _ => exact hstores.elim
  | forkWorkflow params =>
    cases p with
    | step seq =>
      obtain ⟨rfl, horiginal⟩ := hstores
      obtain ⟨original, horiginal⟩ := isSome_iff_exists.mp horiginal
      refine .inr ?_
      change (Memory.forkWorkflow now params g).2.workflows.lookup params.newId ≠ none
      rw [Memory.forkWorkflow, horiginal]
      simp
    | event | stream | mailbox => exact hstores.elim
  | importWorkflow workflows =>
    have himport : existingId workflows g = none ∧ ∃ wf ∈ workflows, wf.id = id := by
      cases p <;> exact hstores
    obtain ⟨hexisting, wf, hwf, rfl⟩ := himport
    refine .inr ?_
    change (Memory.importWorkflow X now workflows g).2.workflows.lookup wf.id ≠ none
    rw [Memory.importWorkflow, hexisting]
    exact isSome_iff_ne_none.mp (isSome_imports hwf)
  | _ => exact hstores.elim

/-- **What a tidy operation keeps.** -/
theorem cleared_run (hg : WellKeyed g) (hop : op.Tidy id g) (h : Cleared id g) :
    Cleared id (op.run X now uuid g) := by
  intro hgone p hp
  cases hrow : g.workflows.lookup id with
  | some row =>
    have hdeletes := Operation.deletes_of_gone hg hrow hgone
    obtain ⟨ids, children, hrun, hid⟩ :
        ∃ ids children, op.run X now uuid g = (deleteWorkflows ids children g).2 ∧
          id ∈ deleteTargets ids children g := hdeletes.run
    rw [hrun] at hgone hp
    exact cleared_delete hid (hop.deleted hdeletes) hgone p hp
  | none =>
    refine h hrow p (Place.occupied_run (fun hstores => ?_) hp)
    exact hop.absent hrow ((hstores.absent hrow (h hrow)).resolve_right (· hgone))

/-! ## Runs -/

/-- **Whatever is read at a place of a workflow that was deleted and created again has been stored
since the id was last without a row**, if its events are gone before each delete and nobody writes
under the id while it has no row. -/
theorem reads_only_new {ids : List String} {children : Bool} {h h' : Inner}
    (hreach : Reaches X (fun _ _ => True) {} g) (hid : id ∈ deleteTargets ids children g)
    (hevents : ∀ key, g.events.lookup (id, key) = none)
    (hrun : Reaches X (Operation.Tidy id) (deleteWorkflows ids children g).2 h)
    (habsent : h.workflows.lookup id = none)
    (hlater : Reaches X (fun op g => ¬op.Stores id p g) h h') : ¬p.Read id h' := by
  have hkeyed : WellKeyed g :=
    hreach.invariant (I := WellKeyed) (fun op _ uuid _ _ hg => wellKeyed_run hg op uuid)
      wellKeyed_empty
  have hdeleted : WellKeyed ((Operation.call (.deleteWorkflows ids children)).run X ⟨0⟩ "" g) :=
    wellKeyed_run hkeyed _ ""
  have hcleared : WellKeyed h ∧ Cleared id h :=
    hrun.invariant (I := fun g => WellKeyed g ∧ Cleared id g)
      (fun op _ uuid _ hop hg => ⟨wellKeyed_run hg.1 op uuid, cleared_run hg.1 hop hg.2⟩)
      ⟨hdeleted, cleared_delete hid hevents⟩
  have hempty : ¬p.Occupied id h' :=
    hlater.invariant (I := fun g => ¬p.Occupied id g)
      (fun _ _ _ _ hstores hg hp => hg (Place.occupied_run hstores hp)) (hcleared.2 habsent p)
  exact fun hread => hempty (Place.read_iff.mp hread)

/-! ## Instances -/

/-- The state after some operations, all at one instant. -/
def after (ops : List Operation) (g : Inner) : Inner :=
  ops.foldl (fun g op => op.run noText ⟨0⟩ "" g) g

theorem reaches_after (ops : List Operation) (g : Inner) :
    Reaches noText (fun _ _ => True) g (after ops g) := by
  induction ops generalizing g with
  | nil => exact .refl
  | cons op ops ih => exact .head ⟨op, ⟨0⟩, "", trivial, rfl⟩ (ih _)

/-- The workflow `w` is created. -/
def create : Operation := .call (.insertWorkflowStatus (.new ⟨0⟩ "w" "f" .null .pending "local" ""))

/-- It has recorded a step. -/
def stepped : Inner := after [create, .call (.recordStepResult "w" 0 "charge" .null none none)] {}

theorem reads_only_new_step : (Place.step 0).Read "w" stepped ∧
    ¬(Place.step 0).Read "w" (after [create] (deleteWorkflows ["w"] false stepped).2) := by
  have hgone : (deleteWorkflows ["w"] false stepped).2.workflows.lookup "w" = none := rfl
  have hcreated : Step noText (fun op g => ¬op.Stores "w" (.step 0) g)
      (deleteWorkflows ["w"] false stepped).2 _ := ⟨create, ⟨0⟩, "", id, rfl⟩
  exact ⟨nofun, reads_only_new (reaches_after _ _) mem_cons_self (fun _ => rfl) .refl hgone
    (.single hcreated)⟩

/-- **A workflow that is created again reads what its predecessor left.**  The event of the first
run is still there after the delete, and so is a step that the first run, still going, recorded
after it. -/
theorem residue_of_deleted :
    (∃ g h : Inner, Reaches noText (fun _ _ => True) {} g ∧ h = (deleteWorkflows ["w"] false g).2 ∧
      h.workflows.lookup "w" = none ∧
      (getEventValue "w" "status" (after [create] h)).1 = .ok (some (.string "old"))) ∧
    ∃ g h : Inner, Reaches noText (fun _ _ => True) {} g ∧
      Reaches noText (fun _ _ => True) (deleteWorkflows ["w"] false g).2 h ∧
      h.workflows.lookup "w" = none ∧
      (getStepResult "w" 0 (after [create] h)).1 =
        .ok (some ⟨"charge", .output (.string "old")⟩) := by
  refine ⟨⟨after [create, .call (.upsertEvent "w" "status" (.string "old"))] {}, _,
    reaches_after _ _, rfl, rfl, rfl⟩, ?_⟩
  exact ⟨after [create] {}, _, reaches_after _ _, reaches_after
    [.call (.recordStepResult "w" 0 "charge" (.string "old") none none)] _, rfl, rfl⟩

end Durare.Memory
