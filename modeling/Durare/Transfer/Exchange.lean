import Durare.Engine.RowSteps
import Durare.Transfer.RoundTrip

/-!
# Transfer/Exchange — an in-memory workflow exported, and imported into SQLite

The in-memory backend exports its payloads as plain JSON with no format, and its stream entries with
no function id.  SQLite reads a value without a format as base64 JSON, and refuses an entry without
a function id.

`import_memory_iff`: the import succeeds and leaves what the in-memory backend has exactly when
there is nothing to misread — no input, no output, no successful step, no event —, no stream entry,
and no two rows in the same deduplication slot, which the in-memory backend allows and SQLite does
not.
-/

namespace Durare

open List Option

open Sqlite (Origin Carries keyed)
open Memory (WellKeyed Inner StepRow ExportedWorkflow colStr colI64 statusOf)

namespace Memory

/-! ## The cargo of an export -/

/-- The integers of a workflow row are in the range of a column. -/
structure Fits (w : WorkflowStatus) : Prop where
  createdAt : FitsI64 w.createdAt.timestampMillis
  updatedAt : FitsI64 w.updatedAt.timestampMillis
  priority : FitsI64 w.priority
  recoveryAttempts : FitsI64 w.recoveryAttempts
  timeout : ∀ n ∈ w.timeoutMs, FitsI64 n
  deadline : ∀ n ∈ w.deadlineMs, FitsI64 n
  startedAt : ∀ n ∈ w.startedAtMs, FitsI64 n
  delayUntil : ∀ n ∈ w.delayUntilMs, FitsI64 n

/-- The integers of the store are in the range of their columns. -/
structure Inner.Fits (g : Inner) : Prop where
  rows : ∀ id w, g.workflows.lookup id = some w → Memory.Fits w
  steps : ∀ id seq r, g.steps.lookup (id, seq) = some r → FitsI64 seq ∧
    (∀ n ∈ r.startedAtMs, FitsI64 n) ∧ ∀ n ∈ r.completedAtMs, FitsI64 n

section

variable (X : TextCodec)

/-- The row an exported workflow is read as. -/
def arrivedRow (g : Inner) (w : WorkflowStatus) : Sqlite.StatusRow where
  workflowUuid := w.id
  name := w.name
  inputs := X.toText w.input
  output := w.output.map X.toText
  status := statusOf w.status.text
  error := w.error
  executorId := w.executorId
  applicationVersion := w.appVersion
  queueName := w.queueName
  queuePartitionKey := w.queuePartitionKey
  priority := w.priority
  deduplicationId := w.dedupId
  recoveryAttempts := w.recoveryAttempts
  parentWorkflowId := w.parentWorkflowId
  workflowTimeoutMs := w.timeoutMs
  workflowDeadlineEpochMs := w.deadlineMs
  startedAtEpochMs := w.startedAtMs
  delayUntilEpochMs := w.delayUntilMs
  forkedFrom := w.forkedFrom
  wasForkedFrom := g.workflows.values.any fun v => v.forkedFrom = some w.id
  authenticatedUser := w.authenticatedUser
  assumedRole := w.assumedRole
  authenticatedRoles := encodeRoles X w.authenticatedRoles
  className := w.className
  configName := w.configName
  serialization := none
  createdAt := w.createdAt.timestampMillis
  updatedAt := w.updatedAt.timestampMillis

/-- The checkpoint an exported step is read as. -/
def arrivedStep (r : StepRow) : OperationRow where
  functionName := r.name
  output := r.output.map X.toText
  error := r.error
  childWorkflowId := r.childWorkflowId
  startedAtEpochMs := r.startedAtMs
  completedAtEpochMs := r.completedAtMs

/-- A workflow without stream entries, as it is exported. -/
def origin (g : Inner) (w : WorkflowStatus) : Origin StepRow Value where
  row := arrivedRow X g w
  steps := g.steps
  step := arrivedStep X
  events := g.events
  event := X.toText
  entries := []

end

section

variable {X : TextCodec} {g : Inner} {w : WorkflowStatus}

theorem payloadColumn (v : Option Value) :
    v.elim .null (payloadStr X) = textColumn (v.map X.toText) := by
  cases v with
  | none => rfl
  | some v => rfl

theorem importedStatus_exportOne (h : Fits w) :
    Sqlite.importedStatus (exportOne X g w).workflowStatus = .ok (arrivedRow X g w) := by
  -- A row of the other backend has the same columns, in another order.
  let row : Sqlite.StatusRow := { arrivedRow X g w with status := w.status }
  have hrow : row.Fits := ⟨h.createdAt, h.updatedAt, h.priority, h.recoveryAttempts, h.timeout,
    h.deadline, h.startedAt, h.delayUntil⟩
  refine Eq.trans ?_ (Sqlite.importedStatus_exportStatusMap hrow)
  simp only [exportOne, statusToMap, payloadColumn]
  rfl

theorem importedOperation_stepToMap {id : String} {seq : Int} {r : StepRow} (hseq : FitsI64 seq)
    (hstarted : ∀ n ∈ r.startedAtMs, FitsI64 n) (hcompleted : ∀ n ∈ r.completedAtMs, FitsI64 n) :
    Sqlite.importedOperation (stepToMap X id seq r) = .ok ((id, seq), arrivedStep X r) := by
  have hread : Sqlite.importedOperation (Sqlite.exportOpMap id seq (arrivedStep X r)) =
      .ok ((id, seq), arrivedStep X r) :=
    Sqlite.importedOperation_exportOpMap hseq hstarted hcompleted
  refine Eq.trans ?_ hread
  simp only [stepToMap, payloadColumn]
  rfl

theorem carries_exportOne (hfits : g.Fits) (hw : Fits w) (hstreams : streamEntries g w.id = []) :
    Carries (exportOne X g w) (origin X g w).cargo where
  status := importedStatus_exportOne hw
  operations := by
    rw [exportOne, mapM_map, keyed, Origin.cargo, List.map_map]
    refine mapM_eq_ok fun e he => ?_
    obtain ⟨⟨id, seq⟩, r⟩ := e
    rw [mem_mergeSort, mem_filter] at he
    obtain ⟨hseq, hstarted, hcompleted⟩ := hfits.steps id seq r (AList.mem_lookup_iff.mpr he.1)
    exact importedOperation_stepToMap hseq hstarted hcompleted
  events := by
    rw [exportOne, mapM_map, keyed, Origin.cargo, List.map_map]
    exact mapM_eq_ok fun e _ => rfl
  streams := by
    rw [exportOne, hstreams]
    rfl

end

/-! ## What is there then -/

section

variable {X : TextCodec} {g : Inner}

/-- No two rows hold the same deduplication slot. -/
def Disjoint (rows : List WorkflowStatus) : Prop :=
  rows.Pairwise fun a b => ¬(b.queueName.isSome ∧ b.dedupId.isSome ∧ a.queueName = b.queueName ∧
    a.dedupId = b.dedupId)

variable {rows : List WorkflowStatus}

/-- **An export without stream entries is imported**, if no two rows hold the same slot. -/
theorem arrived_of_import (hfits : g.Fits) (hlookup : ∀ w ∈ rows, g.workflows.lookup w.id = some w)
    (hnodup : (rows.map (·.id)).Nodup) (hstreams : ∀ w ∈ rows, streamEntries g w.id = [])
    (hslots : Disjoint rows) :
    ∃ db', Sqlite.importWorkflow (rows.map (exportOne X g)) {} = (.ok (), db') ∧
      ∀ w ∈ rows, (origin X g w).Arrived db' := by
  refine Sqlite.import_origins (fun w hw => ?_) (fun w _ => ?_) (pairwise_map.mp hnodup) hslots
  · exact carries_exportOne hfits (hfits.rows _ w (hlookup w hw)) (hstreams w hw)
  · exact Origin.sound_cargo _ (fun _ h => by cases h) .nil

/-- No stream entry of the in-memory backend is read: it has no function id. -/
theorem importedEntry_streamToMap (id key : String) (offset : Nat) (entry : Option Value) :
    ∃ e, Sqlite.importedEntry (streamToMap X id key offset entry) = .error e := by
  obtain ⟨m, hm⟩ : ∃ m, m = streamToMap X id key offset entry := ⟨_, rfl⟩
  have hid : colStr m "workflow_uuid" = some id := hm ▸ rfl
  have hkey : colStr m "key" = some key := hm ▸ rfl
  have hfunction : colI64 m "function_id" = none := hm ▸ rfl
  have hvalue : ∃ text, colStr m "value" = some text := by
    rw [hm]
    cases entry with
    | none => exact ⟨_, rfl⟩
    | some v => exact ⟨_, rfl⟩
  obtain ⟨text, htext⟩ := hvalue
  rw [← hm, Sqlite.importedEntry, hid, hkey, htext, hfunction]
  cases colI64 m "offset" with
  | none => exact ⟨_, rfl⟩
  | some n => exact ⟨_, rfl⟩

/-- **An import that succeeds** is of workflows without stream entries, in slots of their own. -/
theorem of_import_ok (hfits : g.Fits) (hlookup : ∀ w ∈ rows, g.workflows.lookup w.id = some w)
    (hnodup : (rows.map (·.id)).Nodup) {db' : Sqlite.Db}
    (h : Sqlite.importWorkflow (rows.map (exportOne X g)) {} = (.ok (), db')) :
    (∀ w ∈ rows, streamEntries g w.id = []) ∧ Disjoint rows := by
  obtain ⟨db₁, hfold⟩ : ∃ db₁,
      (rows.map (exportOne X g)).foldlM Sqlite.importOne {} = .ok db₁ := by
    unfold Sqlite.importWorkflow at h
    cases hfold : (rows.map (exportOne X g)).foldlM Sqlite.importOne {} with
    | error e =>
      rw [hfold] at h
      cases h
    | ok db₁ => exact ⟨db₁, rfl⟩
  constructor
  · intro w hw
    obtain ⟨a, b, hone⟩ := exists_ok_of_foldlM hfold (mem_map_of_mem hw)
    have hrow := importedStatus_exportOne (X := X) (g := g) (hfits.rows _ w (hlookup w hw))
    obtain ⟨-, -, -, hread⟩ := Sqlite.importOne_ok hrow hone
    cases hentries : streamEntries g w.id with
    | nil => rfl
    | cons entry entries =>
      have hmem : streamToMap X w.id entry.1 entry.2.1 entry.2.2 ∈
          (exportOne X g w).streams := by
        rw [exportOne, hentries]
        exact mem_cons_self
      obtain ⟨r, hr⟩ := hread _ hmem
      obtain ⟨e, he⟩ := importedEntry_streamToMap (X := X) w.id entry.1 entry.2.1 entry.2.2
      exact nomatch he.symm.trans hr
  · have hrows : List.Forall₂ (fun wf row => Sqlite.importedStatus wf.workflowStatus = .ok row)
        (rows.map (exportOne X g)) (rows.map (arrivedRow X g)) := by
      rw [forall₂_map_left_iff, forall₂_map_right_iff, forall₂_same]
      exact fun w hw => importedStatus_exportOne (hfits.rows _ w (hlookup w hw))
    have hapart : (rows.map (arrivedRow X g)).Pairwise
        fun a b => a.workflowUuid ≠ b.workflowUuid := by
      rw [pairwise_map]
      exact pairwise_map.mp hnodup
    exact pairwise_map.mp (Sqlite.slots_of_import hrows hapart hfold).1

/-! ## When it is the same -/

/-- **A workflow is in the database as it is in memory**: its input and output, its steps, its
events and its streams. -/
structure SameContents (X : TextCodec) (g : Inner) (db' : Sqlite.Db) (id : String) : Prop where
  row : ∀ now, (Sqlite.getWorkflowStatus X .json now id db').1.map (fun w => w.map fun w =>
      (w.input, w.output)) =
    (getWorkflowStatus id g).1.map fun w => w.map fun w => (w.input, w.output)
  steps : ∀ seq, (Sqlite.getStepResult X .json id seq db').1 = (getStepResult id seq g).1
  events : ∀ key, (Sqlite.getEventValue X .json id key db').1 = (getEventValue id key g).1
  streams : ∀ key offset,
    (Sqlite.readStream X .json id key offset db').1 = (readStream id key offset g).1

/-- **Nothing of the workflow would be misread or refused**: there is no input and no output, every
step has failed, and there is no event and no stream entry. -/
structure Bare (g : Inner) (id : String) : Prop where
  row : ∀ w, g.workflows.lookup id = some w → w.input = .null ∧ w.output = none
  steps : ∀ seq r, g.steps.lookup (id, seq) = some r → r.error.isSome
  events : ∀ key, g.events.lookup (id, key) = none
  streams : ∀ key entries, g.streams.lookup (id, key) = some entries → entries = []

/-- No two of the workflows hold the same deduplication slot. -/
def SlotsApart (g : Inner) (ids : List String) : Prop :=
  ∀ y ∈ ids, ∀ y' ∈ ids, ∀ w w', g.workflows.lookup y = some w → g.workflows.lookup y' = some w' →
    w.queueName.isSome → w.dedupId.isSome → w'.queueName = w.queueName → w'.dedupId = w.dedupId →
      y = y'

theorem disjoint_iff (hlookup : ∀ w ∈ rows, g.workflows.lookup w.id = some w)
    (hnodup : (rows.map (·.id)).Nodup) : Disjoint rows ↔ SlotsApart g (rows.map (·.id)) := by
  constructor
  · intro h y hy y' hy' w w' hw hw' hqueue hdedup hq hd
    obtain ⟨a, ha, rfl⟩ := mem_map.mp hy
    obtain ⟨b, hb, rfl⟩ := mem_map.mp hy'
    cases Option.some.inj ((hlookup a ha).symm.trans hw)
    cases Option.some.inj ((hlookup b hb).symm.trans hw')
    have hsymm : Std.Symm fun a b : WorkflowStatus => ¬(b.queueName.isSome ∧ b.dedupId.isSome ∧
        a.queueName = b.queueName ∧ a.dedupId = b.dedupId) :=
      ⟨fun a b hab ⟨hqueue, hdedup, hq, hd⟩ => hab ⟨hq ▸ hqueue, hd ▸ hdedup, hq.symm, hd.symm⟩⟩
    by_contra hne
    have hdiffer : w' ≠ w := fun heq => hne (congrArg WorkflowStatus.id heq.symm)
    exact List.Pairwise.forall h hb ha hdiffer ⟨hqueue, hdedup, hq, hd⟩
  · intro h
    refine (pairwise_map.mp hnodup).imp_of_mem ?_
    rintro a b ha hb hne ⟨hqueue, hdedup, hq, hd⟩
    exact hne (h b.id (mem_map_of_mem hb) a.id (mem_map_of_mem ha) b a (hlookup b hb)
      (hlookup a ha) hqueue hdedup hq hd).symm

theorem streamEntries_eq_nil {id : String} : streamEntries g id = [] ↔
    ∀ key entries, g.streams.lookup (id, key) = some entries → entries = [] := by
  rw [streamEntries, flatMap_eq_nil_iff]
  constructor
  · intro h key entries hentries
    have hmem : ⟨(id, key), entries⟩ ∈ (g.streams.entries.filter fun e => e.1.1 = id).mergeSort
        fun a b => a.1.2 ≤ b.1.2 := by
      rw [mem_mergeSort, mem_filter]
      exact ⟨AList.mem_lookup_iff.mp hentries, decide_eq_true rfl⟩
    exact zipIdx_eq_nil_iff.mp (map_eq_nil_iff.mp (h _ hmem))
  · intro h e he
    rw [mem_mergeSort, mem_filter] at he
    obtain ⟨⟨id', key⟩, entries⟩ := e
    cases of_decide_eq_true he.2
    cases h key entries (AList.mem_lookup_iff.mpr he.1)
    rfl

variable {db' : Sqlite.Db} {w : WorkflowStatus}

theorem lookup_step_arrived (h : (origin X g w).Arrived db') (seq : Int) :
    db'.operationOutputs.lookup (w.id, seq) = (g.steps.lookup (w.id, seq)).map (arrivedStep X) :=
  h.operations seq

theorem lookup_event_arrived (h : (origin X g w).Arrived db') (key : String) :
    db'.workflowEvents.lookup (w.id, key) =
      (g.events.lookup (w.id, key)).map fun v => (X.toText v, none) :=
  h.events key

/-- What the row of an imported workflow is read as: its payloads do not decode. -/
theorem reads_row (h : (origin X g w).Arrived db')
    (hlost : ∀ v, ∃ e, decode X .json none (X.toText v) = .error e) (now : DateTime) :
    (Sqlite.getWorkflowStatus X .json now w.id db').1.map (fun w => w.map fun w =>
      (w.input, w.output)) = .ok (some (.null, none)) := by
  obtain ⟨mark, hrow : db'.workflowStatus.lookup w.id = _⟩ := h.row
  obtain ⟨e, he⟩ := hlost w.input
  have hinput : decodeInput X .json none (X.toText w.input) = .error e := congrArg (Except.map _) he
  have houtput : (decodeOpt X .json none (w.output.map X.toText)).toOption.join = none := by
    cases w.output with
    | none => rfl
    | some v =>
      obtain ⟨e', he'⟩ := hlost v
      have hopt : decodeOpt X .json none (some (X.toText v)) = .error e' :=
        congrArg (Except.map some) he'
      rw [map_some, hopt]
      rfl
  unfold Sqlite.getWorkflowStatus
  rw [hrow]
  refine congrArg (fun p => Except.ok (some p)) (Prod.ext ?_ houtput)
  exact congrArg (fun r : Except Error Value => r.toOption.getD .null) hinput

/-- A workflow with nothing to misread is there as it was. -/
theorem sameContents_of_bare (h : (origin X g w).Arrived db')
    (hw : g.workflows.lookup w.id = some w)
    (hlost : ∀ v, ∃ e, decode X .json none (X.toText v) = .error e) (hbare : Bare g w.id) :
    SameContents X g db' w.id where
  row now := by
    obtain ⟨hinput, houtput⟩ := hbare.row w hw
    rw [reads_row h hlost now, getWorkflowStatus, hw, ← hinput, ← houtput]
    rfl
  steps seq := by
    unfold Sqlite.getStepResult getStepResult
    rw [lookup_step_arrived h seq]
    cases hr : g.steps.lookup (w.id, seq) with
    | none => rfl
    | some r =>
      obtain ⟨e, he⟩ := isSome_iff_exists.mp (hbare.steps seq r hr)
      have harrived : stepOutcomeFrom X .json (arrivedStep X r) =
          .ok (some (.failure e none)) := Sqlite.stepOutcomeFrom_error he
      dsimp only [map_some]
      rw [harrived, stepRowOutcome, he]
      rfl
  events key := by
    unfold Sqlite.getEventValue getEventValue
    rw [lookup_event_arrived h key, hbare.events key]
    rfl
  streams key offset := by
    have hnone : (db'.streams.filter fun r => r.workflowUuid = w.id && r.key = key &&
        offset ≤ r.offset) = [] := by
      refine filter_eq_nil_iff.mpr fun r hr hin => ?_
      rw [Bool.and_eq_true, Bool.and_eq_true] at hin
      exact filter_eq_nil_iff.mp h.entries r hr hin.1.1
    have hempty : (g.streams.lookup (w.id, key)).getD [] = [] := by
      cases hentries : g.streams.lookup (w.id, key) with
      | none => rfl
      | some entries => exact hbare.streams key entries hentries
    unfold Sqlite.readStream readStream
    dsimp only
    rw [hnone, hempty, drop_nil, mergeSort_nil]
    rfl

/-- A workflow that is there as it was has nothing to misread. -/
theorem bare_of_sameContents (h : (origin X g w).Arrived db') (hw : g.workflows.lookup w.id =
    some w) (hlost : ∀ v, ∃ e, decode X .json none (X.toText v) = .error e)
    (hstreams : streamEntries g w.id = []) (hsame : SameContents X g db' w.id) : Bare g w.id where
  row w' hw' := by
    cases Option.some.inj (hw.symm.trans hw')
    have hrow := hsame.row ⟨0⟩
    rw [reads_row h hlost, getWorkflowStatus, hw] at hrow
    obtain ⟨hinput, houtput⟩ := Prod.mk.inj (Option.some.inj (Except.ok.inj hrow))
    exact ⟨hinput.symm, houtput.symm⟩
  steps seq r hr := by
    have hstep := hsame.steps seq
    unfold Sqlite.getStepResult getStepResult at hstep
    rw [lookup_step_arrived h seq, hr] at hstep
    cases herror : r.error with
    | some e => rfl
    | none =>
      cases houtput : r.output with
      | none =>
        have harrived : stepOutcomeFrom X .json (arrivedStep X r) = .ok none := by
          rw [stepOutcomeFrom, arrivedStep, herror, houtput]
          rfl
        dsimp only [map_some] at hstep
        rw [harrived] at hstep
        cases hstep
      | some v =>
        obtain ⟨e, he⟩ := hlost v
        have htext : (arrivedStep X r).output = some (X.toText v) :=
          congrArg (Option.map X.toText) houtput
        have hread := @Sqlite.stepOutcomeFrom_output X .json (arrivedStep X r) _ herror htext
        have harrived : stepOutcomeFrom X .json (arrivedStep X r) = .error e :=
          hread.trans (congrArg (Except.map _) he)
        dsimp only [map_some] at hstep
        rw [harrived] at hstep
        cases hstep
  events key := by
    have hevent := hsame.events key
    unfold Sqlite.getEventValue getEventValue at hevent
    rw [lookup_event_arrived h key] at hevent
    cases hv : g.events.lookup (w.id, key) with
    | none => rfl
    | some v =>
      obtain ⟨e, he⟩ := hlost v
      rw [hv] at hevent
      dsimp only [map_some] at hevent
      rw [he] at hevent
      cases hevent
  streams := streamEntries_eq_nil.mp hstreams

/-! ## The exchange -/

/-- **An in-memory workflow that is exported is imported into an empty SQLite database as it was**,
if nothing of it would be misread or refused and no two rows of the export hold the same
deduplication slot, and otherwise is not. -/
theorem import_memory_iff (hX : X.Apart) (hread : ∀ v, ∃ v', X.fromText (X.toText v) = .ok v')
    (hg : WellKeyed g) (hfits : g.Fits) {id : String} (hrow : (g.workflows.lookup id).isSome)
    (exportChildren : Bool) :
    ((exportChildren = true → Acc (fun y x => Traversal.Below (childrenOf g) x y) id) →
      ∃ fuel exported, exportWorkflow X fuel id exportChildren g = some (.ok exported)) ∧
    ∀ fuel ids exported, exportedIds (childrenOf g) fuel id exportChildren = some ids →
      exportWorkflow X fuel id exportChildren g = some (.ok exported) →
      ((∃ db', Sqlite.importWorkflow exported {} = (.ok (), db') ∧
          ∀ y ∈ ids, SameContents X g db' y) ↔
        (∀ y ∈ ids, Bare g y) ∧ SlotsApart g ids) := by
  have hlost (v : Value) : ∃ e, decode X .json none (X.toText v) = .error e := by
    obtain ⟨v', hv'⟩ := hread v
    exact hX.decode_none (s := .json) trivial (.inr hv')
  refine ⟨fun hacc => ?_, fun fuel ids exported hids hexport => ?_⟩
  · obtain ⟨fuel, ids, hids⟩ := exists_exportedIds hacc
    obtain ⟨exported, hexported⟩ := (exports_exportRows (X := X)).exists_mapM
      fun y hy => exists_row_of_listed hg hrow hids hy
    refine ⟨fuel, exported, ?_⟩
    rw [exportWorkflow, hids]
    exact congrArg some hexported
  · have hnodup : ids.Nodup := nodup_listed hg hids
    rw [exportWorkflow, hids] at hexport
    obtain ⟨rows, rfl, hlookup, rfl⟩ := exports_exportRows.mapM_eq_ok hg (Option.some.inj hexport)
    constructor
    · rintro ⟨db', himport, hsame⟩
      obtain ⟨hstreams, hslots⟩ := of_import_ok hfits hlookup hnodup himport
      obtain ⟨db'', himport', harrived⟩ := arrived_of_import hfits hlookup hnodup hstreams hslots
      cases (Prod.mk.inj (himport.symm.trans himport')).2
      refine ⟨fun y hy => ?_, (disjoint_iff hlookup hnodup).mp hslots⟩
      obtain ⟨w, hw, rfl⟩ := mem_map.mp hy
      exact bare_of_sameContents (harrived w hw) (hlookup w hw) hlost
        (hstreams w hw) (hsame w.id hy)
    · rintro ⟨hbare, hslots⟩
      have hstreams (w : WorkflowStatus) (hw : w ∈ rows) : streamEntries g w.id = [] :=
        streamEntries_eq_nil.mpr (hbare w.id (mem_map_of_mem hw)).streams
      obtain ⟨db', himport, harrived⟩ := arrived_of_import hfits hlookup hnodup hstreams
        ((disjoint_iff hlookup hnodup).mpr hslots)
      refine ⟨db', himport, fun y hy => ?_⟩
      obtain ⟨w, hw, rfl⟩ := mem_map.mp hy
      exact sameContents_of_bare (harrived w hw) (hlookup w hw) hlost (hbare w.id hy)

end

/-! ## A workflow that is lost -/

theorem reads_oneNumber (v : Value) :
    ∃ v', Sqlite.oneNumber.fromText (Sqlite.oneNumber.toText v) = .ok v' := by
  dsimp only [Sqlite.oneNumber]
  split <;> exact ⟨_, rfl⟩

/-- A fresh workflow. -/
def fresh (input : Value) : Inner :=
  (insertWorkflowStatus (.new ⟨0⟩ "w" "pay" input .pending "local" "v1") {}).2

/-- The same workflow once its step has failed. -/
def declined : Inner :=
  (recordStepResult ⟨0⟩ "w" 0 "charge" .null (some "declined") none (fresh .null)).2

/-- The same workflow once it has written to a stream. -/
def streaming : Inner := (writeStream "w" "progress" (some (.number (.int 7))) (fresh .null)).2

theorem wellKeyed_fresh (input : Value) : WellKeyed (fresh input) :=
  AList.forall_lookup_insert (fun _ _ h => by cases h) rfl

theorem fits_fresh (input : Value) : (fresh input).Fits where
  rows := by
    refine AList.forall_lookup_insert (fun _ _ h => by cases h) ?_
    refine ⟨fitsI64_zero, fitsI64_zero, fitsI64_zero, fitsI64_zero, ?_, ?_, ?_, ?_⟩
    all_goals exact fun _ h => by cases h
  steps _ _ _ h := by cases h

theorem fits_declined : declined.Fits where
  rows := (fits_fresh .null).rows
  steps id seq r h := by
    have hall : ∀ k r, declined.steps.lookup k = some r → FitsI64 k.2 ∧
        (∀ n ∈ r.startedAtMs, FitsI64 n) ∧ ∀ n ∈ r.completedAtMs, FitsI64 n := by
      refine AList.forall_lookup_insert (fun _ _ h => by cases h) ?_
      refine ⟨fitsI64_zero, fun _ h => (by cases h), fun n h => ?_⟩
      cases h
      exact fitsI64_zero
    exact hall (id, seq) r h

theorem bare_declined : Bare declined "w" where
  row := by
    rintro w ⟨⟩
    exact ⟨rfl, rfl⟩
  steps seq r h := by
    have hall : ∀ k r, declined.steps.lookup k = some r → r.error.isSome :=
      AList.forall_lookup_insert (fun _ _ h => by cases h) rfl
    exact hall _ r h
  events _ := rfl
  streams _ _ h := by cases h

/-- A workflow that has only failed is exchanged as it was. -/
theorem import_memory_iff_declined : ∃ exported db',
    exportWorkflow Sqlite.oneNumber 0 "w" false declined = some (.ok exported) ∧
    Sqlite.importWorkflow exported {} = (.ok (), db') ∧
    SameContents Sqlite.oneNumber declined db' "w" := by
  have hg : WellKeyed declined := wellKeyed_fresh .null
  have hrow : (declined.workflows.lookup "w").isSome := rfl
  have hslots : SlotsApart declined ["w"] := fun y hy y' hy' _ _ _ _ _ _ _ _ =>
    (mem_singleton.mp hy).trans (mem_singleton.mp hy').symm
  have h := (import_memory_iff Sqlite.apart_oneNumber reads_oneNumber hg fits_declined hrow
    false).2 0 ["w"] _ rfl rfl
  obtain ⟨db', himport, hsame⟩ := h.mpr
    ⟨fun y hy => mem_singleton.mp hy ▸ bare_declined, hslots⟩
  exact ⟨_, db', rfl, himport, hsame "w" (mem_singleton_self _)⟩

/-- **An exported input is not read, and an exported stream is refused**: the input 7 arrives as a
null, and a workflow with a stream entry is not imported at all. -/
theorem memory_export_lost :
    (∃ exported db', exportWorkflow Sqlite.oneNumber 0 "w" false (fresh (.number (.int 7))) =
        some (.ok exported) ∧
      Sqlite.importWorkflow exported {} = (.ok (), db') ∧
      ((getWorkflowStatus "w" (fresh (.number (.int 7)))).1.map fun w => w.map (·.input)) =
        .ok (some (.number (.int 7))) ∧
      ((Sqlite.getWorkflowStatus Sqlite.oneNumber .json ⟨0⟩ "w" db').1.map fun w =>
        w.map (·.input)) = .ok (some .null)) ∧
    ∃ exported, exportWorkflow Sqlite.oneNumber 0 "w" false streaming = some (.ok exported) ∧
      ∀ db', Sqlite.importWorkflow exported {} ≠ (.ok (), db') := by
  constructor
  · have hlookup : ∀ w ∈
      [WorkflowStatus.new ⟨0⟩ "w" "pay" (.number (.int 7)) .pending "local" "v1"],
        (fresh (.number (.int 7))).workflows.lookup w.id = some w := by
      intro w hw
      cases mem_singleton.mp hw
      rfl
    obtain ⟨db', himport, harrived⟩ := arrived_of_import (X := Sqlite.oneNumber)
      (fits_fresh (.number (.int 7))) hlookup (nodup_singleton "w")
      (fun w hw => streamEntries_eq_nil.mpr fun _ _ h => by cases h) (pairwise_singleton _ _)
    obtain ⟨mark, hrow⟩ := (harrived _ (mem_singleton_self _)).row
    refine ⟨_, db', rfl, himport, rfl, ?_⟩
    unfold Sqlite.getWorkflowStatus
    have hrow' : db'.workflowStatus.lookup "w" = _ := hrow
    rw [hrow']
    rfl
  · have hlookup : ∀ w ∈ [WorkflowStatus.new ⟨0⟩ "w" "pay" .null .pending "local" "v1"],
        streaming.workflows.lookup w.id = some w := by
      intro w hw
      cases mem_singleton.mp hw
      rfl
    have hfits : streaming.Fits := ⟨(fits_fresh .null).rows, fun _ _ _ h => by cases h⟩
    refine ⟨_, rfl, fun db' himport => ?_⟩
    have hempty := (of_import_ok hfits hlookup (nodup_singleton "w") himport).1 _
      (mem_singleton_self _)
    exact nomatch streamEntries_eq_nil.mp hempty "progress" [some (.number (.int 7))] rfl

end Memory

end Durare
