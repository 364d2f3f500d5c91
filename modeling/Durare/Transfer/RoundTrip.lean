import Durare.Transfer.Stored
import Durare.Transfer.Texts

/-!
# Transfer/RoundTrip — a SQLite workflow exported, and imported into an empty database

An export has the rows of a workflow column by column, but of a checkpoint, an event or a stream
entry **not its format**, so that an imported value has none and is read as base64 JSON.  That is
how the default serializer writes; what the portable one wrote is plain JSON, and does not read.

`import_export_iff`: a workflow reads in the importing database as it does in the exporting one
exactly when the serializer is the default one or nothing of it needs its format.
-/

namespace Durare

open List Option

/-! ## Values without a format -/

/-- What reads as JSON does not read as base64 JSON: such a text is in the alphabet of base64 only
if it is a number or a literal, and none of those is the base64 of a JSON text. -/
structure TextCodec.Apart (X : TextCodec) : Prop where
  nil : ∀ v, X.fromText NIL_MARKER ≠ .ok v
  unbase64 : ∀ text v inner, (text = "null" ∨ X.fromText text = .ok v) →
    X.unbase64 text = .ok inner → ∃ e, X.fromText inner = .error e

section

variable {X : TextCodec} {s : Serializer} {text : String}

/-- What reads as JSON does not read without its tag. -/
theorem TextCodec.Apart.decode_none (hX : X.Apart) (hs : s.BuiltIn) {v : Value}
    (h : text = "null" ∨ X.fromText text = .ok v) : ∃ e, decode X s none text = .error e := by
  have hnil : text ≠ NIL_MARKER := by
    rintro rfl
    rcases h with h | h
    · exact absurd h (by decide)
    · exact hX.nil v h
  have hbuiltin : ∃ e, decode.decodeBuiltin X text "" = .error e := by
    rw [decode.decodeBuiltin, if_pos (.inl rfl), if_neg hnil]
    cases hinner : X.unbase64 text with
    | error e => exact ⟨_, rfl⟩
    | ok inner =>
      obtain ⟨e, he⟩ := hX.unbase64 text v inner h hinner
      exact ⟨.serde e, congrArg (Except.mapError Error.serde) he⟩
  cases s with
  | json => exact hbuiltin
  | portable => exact hbuiltin
  | custom => exact hs.elim

/-- What the portable serializer reads is JSON. -/
theorem fromText_of_decode_portable {v : Value}
    (h : decode X .portable (some PORTABLE) text = .ok v) :
    text = "null" ∨ X.fromText text = .ok v := by
  by_cases hnull : text = "null"
  · exact .inl hnull
  · have hread : decode X .portable (some PORTABLE) text = (X.fromText text).mapError .serde :=
      if_neg hnull
    rw [hread] at h
    cases hv : X.fromText text with
    | error e =>
      rw [hv] at h
      cases h
    | ok v' =>
      rw [hv] at h
      cases h
      exact .inr rfl

end

namespace Sqlite

open Memory (Columns ExportedWorkflow colStr colI64 statusOf)

/-! ## Columns -/

section

variable {m : Columns} {key : String}

theorem colStr_eq {t : Option String} (h : Value.field m key = some (textColumn t)) :
    colStr m key = t := by
  rw [colStr, h]
  cases t with
  | none => rfl
  | some t => rfl

theorem colI64_eq {n : Option Int} (h : Value.field m key = some (intColumn n))
    (hn : ∀ k ∈ n, FitsI64 k) : colI64 m key = n := by
  rw [colI64, h]
  cases n with
  | none => rfl
  | some n => exact if_pos (hn n rfl)

theorem colI64_eq_some {n : Int} (h : Value.field m key = some (.number (.int n)))
    (hn : FitsI64 n) : colI64 m key = some n := by
  rw [colI64, h]
  exact if_pos hn

end

/-- The integers of a workflow row are in range. -/
structure StatusRow.Fits (row : StatusRow) : Prop where
  createdAt : FitsI64 row.createdAt
  updatedAt : FitsI64 row.updatedAt
  priority : FitsI64 row.priority
  recoveryAttempts : FitsI64 row.recoveryAttempts
  timeout : ∀ n ∈ row.workflowTimeoutMs, FitsI64 n
  deadline : ∀ n ∈ row.workflowDeadlineEpochMs, FitsI64 n
  startedAt : ∀ n ∈ row.startedAtEpochMs, FitsI64 n
  delayUntil : ∀ n ∈ row.delayUntilEpochMs, FitsI64 n

/-- A workflow row as it arrives: whether it counts for a rate limit and when it ended are lost. -/
def StatusRow.arrived (row : StatusRow) : StatusRow :=
  { row with status := statusOf row.status.text, rateLimited := false, completedAt := none }

theorem importedStatus_exportStatusMap {row : StatusRow} (h : row.Fits) :
    importedStatus (exportStatusMap row) = .ok row.arrived := by
  obtain ⟨m, hm⟩ : ∃ m, m = exportStatusMap row := ⟨_, rfl⟩
  have htext (key : String) (t : Option String)
      (hkey : Value.field (exportStatusMap row) key = some (textColumn t)) : colStr m key = t :=
    hm ▸ colStr_eq hkey
  have hint (key : String) (n : Option Int) (hn : ∀ k ∈ n, FitsI64 k)
      (hkey : Value.field (exportStatusMap row) key = some (intColumn n)) : colI64 m key = n :=
    hm ▸ colI64_eq hkey hn
  have hone (key : String) (n : Int) (hn : FitsI64 n)
      (hkey : Value.field (exportStatusMap row) key = some (intColumn (some n))) :
      colI64 m key = some n :=
    hint key (some n) (fun k hk => mem_some.mp hk ▸ hn) hkey
  have hmark : colBool m "was_forked_from" = some row.wasForkedFrom := hm ▸ rfl
  rw [← hm, importedStatus]
  rw [hone "created_at" row.createdAt h.createdAt rfl,
    hone "updated_at" row.updatedAt h.updatedAt rfl, hone "priority" row.priority h.priority rfl,
    hone "recovery_attempts" row.recoveryAttempts h.recoveryAttempts rfl,
    htext "workflow_uuid" (some row.workflowUuid) rfl, htext "name" (some row.name) rfl,
    htext "status" (some row.status.text) rfl, htext "executor_id" (some row.executorId) rfl,
    htext "application_version" (some row.applicationVersion) rfl,
    htext "inputs" (some row.inputs) rfl]
  simp only [notNull, bind, Except.bind, hmark,
    htext "output" row.output rfl, htext "error" row.error rfl,
    htext "queue_name" row.queueName rfl, htext "queue_partition_key" row.queuePartitionKey rfl,
    htext "deduplication_id" row.deduplicationId rfl,
    htext "parent_workflow_id" row.parentWorkflowId rfl, htext "forked_from" row.forkedFrom rfl,
    htext "authenticated_user" row.authenticatedUser rfl,
    htext "assumed_role" row.assumedRole rfl,
    htext "authenticated_roles" row.authenticatedRoles rfl,
    htext "class_name" row.className rfl, htext "config_name" row.configName rfl,
    htext "serialization" row.serialization rfl,
    hint "workflow_timeout_ms" row.workflowTimeoutMs h.timeout rfl,
    hint "workflow_deadline_epoch_ms" row.workflowDeadlineEpochMs h.deadline rfl,
    hint "started_at_epoch_ms" row.startedAtEpochMs h.startedAt rfl,
    hint "delay_until_epoch_ms" row.delayUntilEpochMs h.delayUntil rfl]
  rfl

/-- A checkpoint as it arrives. -/
def untagged (row : OperationRow) : OperationRow := { row with serialization := none }

variable {row : OperationRow}

theorem importedOperation_exportOpMap {id : String} {seq : Int} (hseq : FitsI64 seq)
    (hstarted : ∀ n ∈ row.startedAtEpochMs, FitsI64 n)
    (hcompleted : ∀ n ∈ row.completedAtEpochMs, FitsI64 n) :
    importedOperation (exportOpMap id seq row) = .ok ((id, seq), untagged row) := by
  obtain ⟨m, hm⟩ : ∃ m, m = exportOpMap id seq row := ⟨_, rfl⟩
  have hid : colStr m "workflow_uuid" = some id := hm ▸ rfl
  have hname : colStr m "function_name" = some row.functionName := hm ▸ rfl
  have hfunction : colI64 m "function_id" = some seq := hm ▸ colI64_eq_some rfl hseq
  have houtput : colStr m "output" = row.output := hm ▸ colStr_eq rfl
  have herror : colStr m "error" = row.error := hm ▸ colStr_eq rfl
  have hchild : colStr m "child_workflow_id" = row.childWorkflowId := hm ▸ colStr_eq rfl
  have hstart : colI64 m "started_at_epoch_ms" = row.startedAtEpochMs := hm ▸ colI64_eq rfl hstarted
  have hend : colI64 m "completed_at_epoch_ms" = row.completedAtEpochMs :=
    hm ▸ colI64_eq rfl hcompleted
  rw [← hm, importedOperation, hid, hname, hfunction, houtput, herror, hchild, hstart, hend]
  rfl

/-- A stream entry as it arrives. -/
def StreamRow.untagged (row : StreamRow) : StreamRow := { row with serialization := none }

theorem importedEntry_exportStreamMap {row : StreamRow} (hoffset : FitsI64 row.offset)
    (hfunction : FitsI64 row.functionId) :
    importedEntry (exportStreamMap row) = .ok row.untagged := by
  obtain ⟨m, hm⟩ : ∃ m, m = exportStreamMap row := ⟨_, rfl⟩
  have hid : colStr m "workflow_uuid" = some row.workflowUuid := hm ▸ rfl
  have hkey : colStr m "key" = some row.key := hm ▸ rfl
  have hvalue : colStr m "value" = some row.value := hm ▸ rfl
  have hoff : colI64 m "offset" = some row.offset := hm ▸ colI64_eq_some rfl hoffset
  have hfun : colI64 m "function_id" = some row.functionId := hm ▸ colI64_eq_some rfl hfunction
  rw [← hm, importedEntry, hid, hkey, hvalue, hoff, hfun]
  rfl

/-! ## The cargo of an export -/

/-- The integers of the database are in the range of their columns. -/
structure Db.Fits (db : Db) : Prop where
  rows : ∀ id row, db.workflowStatus.lookup id = some row → row.Fits
  operations : ∀ id seq row, db.operationOutputs.lookup (id, seq) = some row → FitsI64 seq ∧
    (∀ n ∈ row.startedAtEpochMs, FitsI64 n) ∧ ∀ n ∈ row.completedAtEpochMs, FitsI64 n
  entries : ∀ r ∈ db.streams, FitsI64 r.offset ∧ FitsI64 r.functionId

/-- A workflow of the database, as it is exported. -/
def origin (db : Db) (row : StatusRow) : Origin OperationRow (String × Option String) where
  row := row.arrived
  steps := db.operationOutputs
  step := untagged
  events := db.workflowEvents
  event := Prod.fst
  entries := ((db.streams.filter fun r => r.workflowUuid = row.workflowUuid).mergeSort
    streamOrder).map StreamRow.untagged

section

variable {db : Db} {row : StatusRow}

theorem carries_exportOne (hfits : db.Fits) (hrow : row.Fits) :
    Carries (exportOne db row) (origin db row).cargo where
  status := importedStatus_exportStatusMap hrow
  operations := by
    rw [exportOne, mapM_map, keyed, Origin.cargo, List.map_map]
    refine mapM_eq_ok fun e he => ?_
    obtain ⟨⟨id, seq⟩, op⟩ := e
    rw [mem_mergeSort, mem_filter] at he
    obtain ⟨hseq, hstarted, hcompleted⟩ :=
      hfits.operations id seq op (AList.mem_lookup_iff.mpr he.1)
    exact importedOperation_exportOpMap hseq hstarted hcompleted
  events := by
    rw [exportOne, mapM_map, keyed, Origin.cargo, List.map_map]
    exact mapM_eq_ok fun e _ => rfl
  streams := by
    rw [exportOne, mapM_map, Origin.cargo, origin]
    refine mapM_eq_ok fun r hr => ?_
    rw [mem_mergeSort, mem_filter] at hr
    obtain ⟨hoffset, hfunction⟩ := hfits.entries r hr.1
    exact importedEntry_exportStreamMap hoffset hfunction

theorem sound_origin (hplaces : db.streams.Pairwise fun a b => ¬Collide a b) :
    (origin db row).cargo.Sound := by
  refine Origin.sound_cargo _ (fun r hr => ?_) ?_
  · obtain ⟨r', hr', rfl⟩ := mem_map.mp hr
    rw [mem_mergeSort, mem_filter] at hr'
    exact of_decide_eq_true hr'.2
  · have hperm := (db.streams.filter fun r => r.workflowUuid = row.workflowUuid).mergeSort_perm
      streamOrder
    have hsymm {a b : StreamRow} (hab : ¬(a.key = b.key ∧ a.offset = b.offset)) :
        ¬(b.key = a.key ∧ b.offset = a.offset) := fun h => hab ⟨h.1.symm, h.2.symm⟩
    rw [origin, pairwise_map]
    refine (hperm.pairwise_iff hsymm).mpr ?_
    refine (hplaces.filter _).imp_of_mem fun {a b} ha hb hab h => hab ⟨?_, h⟩
    have ha' := of_decide_eq_true (mem_filter.mp ha).2
    have hb' := of_decide_eq_true (mem_filter.mp hb).2
    exact ha'.trans hb'.symm

end

section

variable {db : Db}

theorem exports_exportRows : Exports db.workflowStatus (exportOne db)
    fun id => match db.workflowStatus.lookup id with
      | some row => .ok (exportOne db row)
      | none => .error (.nonExistentWorkflow id) where
  row id row h := by rw [h]
  missing id h := ⟨.nonExistentWorkflow id, by rw [h]⟩

/-- **An export is imported**, and every workflow of it arrives. -/
theorem arrived_of_import (hrows : SoundRows db.workflowStatus)
    (hplaces : db.streams.Pairwise fun a b => ¬Collide a b) (hfits : db.Fits) {ids : List String}
    {exported : List ExportedWorkflow} (hnodup : ids.Nodup)
    (hexport : exportRows db ids = .ok exported) :
    ∃ db', importWorkflow exported {} = (.ok (), db') ∧ ∀ y ∈ ids, ∃ row,
      db.workflowStatus.lookup y = some row ∧ row.workflowUuid = y ∧
        (origin db row).Arrived db' := by
  obtain ⟨rows, rfl, hlookup, rfl⟩ := exports_exportRows.mapM_eq_ok hrows.keyed hexport
  have hslots : rows.Pairwise fun a b => ¬Clash b.arrived a.arrived := by
    refine (pairwise_map.mp hnodup).imp_of_mem fun {a b} ha hb hne hclash => hne ?_
    exact (hrows.slots _ _ b a (hlookup b hb) (hlookup a ha) hclash).symm
  obtain ⟨db', himport, harrived⟩ := import_origins (o := origin db)
    (fun row hrow => carries_exportOne hfits (hfits.rows _ row (hlookup row hrow)))
    (fun row _ => sound_origin hplaces) (pairwise_map.mp hnodup) hslots
  refine ⟨db', himport, fun y hy => ?_⟩
  obtain ⟨row, hrow, rfl⟩ := mem_map.mp hy
  exact ⟨row, hlookup row hrow, rfl, harrived row hrow⟩

end

/-! ## What is read then -/

/-- **A workflow reads in two databases the same**: its steps, its events, its streams, and the
input, the output and the error of its row. -/
structure SameReadings (X : TextCodec) (s : Serializer) (db db' : Db) (id : String) : Prop where
  steps : ∀ seq, (getStepResult X s id seq db').1 = (getStepResult X s id seq db).1
  events : ∀ key, (getEventValue X s id key db').1 = (getEventValue X s id key db).1
  streams : ∀ key offset, (readStream X s id key offset db').1 = (readStream X s id key offset db).1
  row : ∀ now, (getWorkflowStatus X s now id db').1.map (fun w => w.map fun w =>
      (w.input, w.output, w.error, w.errorInfo)) =
    (getWorkflowStatus X s now id db).1.map fun w => w.map fun w =>
      (w.input, w.output, w.error, w.errorInfo)

/-- **Nothing of the workflow needs its format to be read**: no step has an output or an error in an
envelope, there is no event, and the streams have closing entries only. -/
structure Formatless (X : TextCodec) (db : Db) (id : String) : Prop where
  outputs : ∀ seq row, db.operationOutputs.lookup (id, seq) = some row →
    row.error = none → row.output = none
  errors : ∀ seq row text, db.operationOutputs.lookup (id, seq) = some row →
    row.error = some text → (X.fromText text).toOption.bind PortableWorkflowError.fromValue = none
  events : ∀ key, db.workflowEvents.lookup (id, key) = none
  entries : ∀ r ∈ db.streams, r.workflowUuid = id → r.value = STREAM_CLOSED_SENTINEL

variable {l rows : List StreamRow}

section

variable {X : TextCodec} {s : Serializer} {db db' : Db} {id : String} {w : StatusRow}

theorem decodeUntilClosed_untagged
    (h : ∀ r ∈ rows, r.value ≠ STREAM_CLOSED_SENTINEL →
      decode X s none r.value = decode X s r.serialization r.value) :
    decodeUntilClosed X s (rows.map StreamRow.untagged) = decodeUntilClosed X s rows := by
  induction rows with
  | nil => rfl
  | cons r rows ih =>
    have hrest := ih fun r' hr' => h r' (mem_cons_of_mem _ hr')
    by_cases hclosed : r.value = STREAM_CLOSED_SENTINEL
    · rw [map_cons, decodeUntilClosed, decodeUntilClosed, if_pos hclosed]
      exact if_pos hclosed
    · have hr := h r mem_cons_self hclosed
      rw [map_cons, decodeUntilClosed, decodeUntilClosed, if_neg hclosed, ← hr, hrest]
      exact if_neg hclosed

theorem eq_of_collide (hplaces : l.Pairwise fun a b => ¬Collide a b) {a b : StreamRow} (ha : a ∈ l)
    (hb : b ∈ l) (h : Collide a b) : a = b := by
  have hsymm : Std.Symm fun a b : StreamRow => ¬Collide a b :=
    ⟨fun a b hab h => hab ⟨h.1.symm, h.2.1.symm, h.2.2.symm⟩⟩
  by_contra hne
  exact hplaces.forall ha hb hne h

theorem pairwise_offset (l : List StreamRow) :
    (l.mergeSort fun a b => a.offset ≤ b.offset).Pairwise fun a b => a.offset ≤ b.offset := by
  refine (pairwise_mergeSort (fun a b c hab hbc => ?_) (fun a b => ?_) l).imp of_decide_eq_true
  · exact decide_eq_true ((of_decide_eq_true hab).trans (of_decide_eq_true hbc))
  · rw [Bool.or_eq_true, decide_eq_true_eq, decide_eq_true_eq]
    exact le_total a.offset b.offset

/-- Entries at places of their own are sorted in one way. -/
theorem mergeSort_offset {l' : List StreamRow} (hperm : l.Perm l')
    (hplaces : ∀ a ∈ l', ∀ b ∈ l', a.offset = b.offset → a = b) :
    l.mergeSort (fun a b => a.offset ≤ b.offset) = l'.mergeSort fun a b => a.offset ≤ b.offset := by
  have hsame : (l.mergeSort fun a b => a.offset ≤ b.offset).Perm
      (l'.mergeSort fun a b => a.offset ≤ b.offset) :=
    (mergeSort_perm l _).trans (hperm.trans (mergeSort_perm l' _).symm)
  refine hsame.eq_of_pairwise (fun a b ha hb hab hba => ?_) (pairwise_offset l)
    (pairwise_offset l')
  have ha' := hsame.mem_iff.mp ha
  rw [mem_mergeSort] at ha' hb
  exact hplaces a ha' b hb (le_antisymm hab hba)

/-- The entries of a stream from an offset on, in their order. -/
def streamFrom (db : Db) (id key : String) (offset : Int) : List StreamRow :=
  (db.streams.filter fun r => r.workflowUuid = id && r.key = key && offset ≤ r.offset).mergeSort
    fun a b => a.offset ≤ b.offset

theorem filter_stream (rows : List StreamRow) (id key : String) (offset : Int) :
    (rows.filter fun r => r.workflowUuid = id && r.key = key && offset ≤ r.offset) =
      (rows.filter fun r => r.workflowUuid = id).filter
        fun r => r.key = key && offset ≤ r.offset := by
  rw [List.filter_filter]
  refine filter_congr fun r _ => ?_
  rw [Bool.and_assoc, Bool.and_comm]

theorem lookup_step_arrived (h : (origin db w).Arrived db') (seq : Int) :
    db'.operationOutputs.lookup (w.workflowUuid, seq) =
      (db.operationOutputs.lookup (w.workflowUuid, seq)).map untagged :=
  h.operations seq

theorem lookup_event_arrived (h : (origin db w).Arrived db') (key : String) :
    db'.workflowEvents.lookup (w.workflowUuid, key) =
      (db.workflowEvents.lookup (w.workflowUuid, key)).map fun e => (e.1, none) :=
  h.events key

/-- A stream arrives in its order, without the formats. -/
theorem streamFrom_arrived (h : (origin db w).Arrived db')
    (hplaces : db.streams.Pairwise fun a b => ¬Collide a b) (key : String) (offset : Int) :
    streamFrom db' w.workflowUuid key offset =
      (streamFrom db w.workflowUuid key offset).map StreamRow.untagged := by
  let own := db.streams.filter fun r => r.workflowUuid = w.workflowUuid
  let inStream (r : StreamRow) : Bool := r.key = key && offset ≤ r.offset
  have hsame : ((own.mergeSort streamOrder).filter inStream).mergeSort
      (fun a b => a.offset ≤ b.offset) = (own.filter inStream).mergeSort
        fun a b => a.offset ≤ b.offset := by
    refine mergeSort_offset ((mergeSort_perm own streamOrder).filter inStream) ?_
    intro a ha b hb hab
    obtain ⟨ha, hastream⟩ := mem_filter.mp ha
    obtain ⟨hb, hbstream⟩ := mem_filter.mp hb
    obtain ⟨ha, haid⟩ := mem_filter.mp ha
    obtain ⟨hb, hbid⟩ := mem_filter.mp hb
    rw [Bool.and_eq_true, decide_eq_true_eq] at hastream hbstream
    refine eq_of_collide hplaces ha hb ⟨?_, hastream.1.trans hbstream.1.symm, hab⟩
    exact (of_decide_eq_true haid).trans (of_decide_eq_true hbid).symm
  have hentries : db'.streams.filter (fun r => r.workflowUuid = w.workflowUuid) = _ := h.entries
  rw [streamFrom, streamFrom, filter_stream, filter_stream, hentries, origin, List.filter_map]
  refine Eq.trans ?_ (congrArg (List.map StreamRow.untagged) hsame)
  exact (map_mergeSort (f := StreamRow.untagged) fun a _ b _ => rfl).symm

/-- The workflow reads as it did, if its values do. -/
theorem sameReadings_arrived (hw : db.workflowStatus.lookup w.workflowUuid = some w)
    (h : (origin db w).Arrived db')
    (hplaces : db.streams.Pairwise fun a b => ¬Collide a b)
    (hsteps : ∀ seq row, db.operationOutputs.lookup (w.workflowUuid, seq) = some row →
      stepOutcomeFrom X s (untagged row) = stepOutcomeFrom X s row)
    (hevents : ∀ key e, db.workflowEvents.lookup (w.workflowUuid, key) = some e →
      decode X s none e.1 = decode X s e.2 e.1)
    (hentries : ∀ r ∈ db.streams, r.workflowUuid = w.workflowUuid →
      r.value ≠ STREAM_CLOSED_SENTINEL → decode X s none r.value =
        decode X s r.serialization r.value) :
    SameReadings X s db db' w.workflowUuid where
  steps seq := by
    unfold getStepResult
    rw [lookup_step_arrived h seq]
    cases hrow : db.operationOutputs.lookup (w.workflowUuid, seq) with
    | none => rfl
    | some row =>
      have hsame := hsteps seq row hrow
      exact congrArg (Except.map fun o : Option StepOutcome => o.map fun so =>
        (⟨row.functionName, so⟩ : RecordedStep)) hsame
  events key := by
    unfold getEventValue
    rw [lookup_event_arrived h key]
    cases he : db.workflowEvents.lookup (w.workflowUuid, key) with
    | none => rfl
    | some e => exact congrArg (Except.map some) (hevents key e he)
  streams key offset := by
    change decodeUntilClosed X s (streamFrom db' w.workflowUuid key offset) =
      decodeUntilClosed X s (streamFrom db w.workflowUuid key offset)
    rw [streamFrom_arrived h hplaces]
    refine decodeUntilClosed_untagged fun r hr hopen => ?_
    rw [streamFrom, mem_mergeSort, mem_filter, Bool.and_eq_true, Bool.and_eq_true] at hr
    exact hentries r hr.1 (of_decide_eq_true hr.2.1.1) hopen
  row now := by
    obtain ⟨mark, hmark⟩ := h.row
    unfold getWorkflowStatus
    rw [hw, show db'.workflowStatus.lookup w.workflowUuid = _ from hmark]
    rfl

/-! ## When it reads the same -/

/-- **What the default serializer wrote reads without its format.** -/
theorem sameReadings_json (hw : db.workflowStatus.lookup w.workflowUuid = some w)
    (h : (origin db w).Arrived db') (hstored : Stored X .json db) :
    SameReadings X .json db db' w.workflowUuid := by
  refine sameReadings_arrived hw h hstored.places (fun seq row hrow => ?_) (fun key e he => ?_)
    fun r hr _ hopen => ?_
  · obtain ⟨name, output, error, format, child, started, completed⟩ := row
    rcases hstored.operations _ _ hrow with ⟨houtput, herror⟩ | ⟨hformat, -⟩
    · cases houtput
      cases herror
      rfl
    · cases hformat
      rfl
  · obtain ⟨text, format⟩ := e
    cases (hstored.events _ _ he).1
    rfl
  · rcases hstored.entries r hr with hclosed | htagged
    · exact absurd hclosed hopen
    · rw [htagged.1]
      rfl

/-- What needs no format reads without it. -/
theorem sameReadings_formatless (hw : db.workflowStatus.lookup w.workflowUuid = some w)
    (h : (origin db w).Arrived db') (hstored : Stored X s db)
    (hplain : Formatless X db w.workflowUuid) : SameReadings X s db db' w.workflowUuid := by
  refine sameReadings_arrived hw h hstored.places (fun seq row hrow => ?_) (fun key e he => ?_)
    fun r hr hid hopen => ?_
  · have houtput := hplain.outputs seq row hrow
    have herror := hplain.errors seq row
    obtain ⟨name, output, error, format, child, started, completed⟩ := row
    cases error with
    | none =>
      cases houtput rfl
      rfl
    | some text =>
      have henvelope := herror text hrow rfl
      have hsame : decodeError X format text = decodeError X none text := by
        unfold decodeError
        rw [henvelope]
        split <;> rfl
      exact congrArg (fun r : String × Option PortableWorkflowError =>
        Except.ok (some (StepOutcome.failure r.1 r.2))) hsame.symm
  · rw [hplain.events key] at he
    cases he
  · exact absurd (hplain.entries r hr hid) hopen

/-- What the portable serializer wrote does not read without its format. -/
theorem misread (hX : X.Apart) {format : Option String} {text : String}
    (h : Tagged X .portable format text) : ∃ e v, decode X .portable none text = .error e ∧
      decode X .portable format text = .ok v := by
  obtain ⟨rfl, v, hv⟩ := h
  obtain ⟨e, he⟩ := hX.decode_none (s := .portable) trivial (fromText_of_decode_portable hv)
  exact ⟨e, v, he, hv⟩

theorem streamFrom_eq_cons (hplaces : db.streams.Pairwise fun a b => ¬Collide a b) {r : StreamRow}
    (hr : r ∈ db.streams) : ∃ rest, streamFrom db r.workflowUuid r.key r.offset = r :: rest := by
  have hmem {r' : StreamRow} : r' ∈ streamFrom db r.workflowUuid r.key r.offset ↔ r' ∈ db.streams ∧
      (r'.workflowUuid = r.workflowUuid ∧ r'.key = r.key) ∧ r.offset ≤ r'.offset := by
    rw [streamFrom, mem_mergeSort, mem_filter, Bool.and_eq_true, Bool.and_eq_true,
      decide_eq_true_eq, decide_eq_true_eq, decide_eq_true_eq]
  have hself := hmem.mpr ⟨hr, ⟨rfl, rfl⟩, le_refl _⟩
  cases hrows : streamFrom db r.workflowUuid r.key r.offset with
  | nil =>
    rw [hrows] at hself
    cases hself
  | cons first rest =>
    have hfirst := hmem.mp (hrows ▸ mem_cons_self)
    have hsorted : (first :: rest).Pairwise fun a b => a.offset ≤ b.offset :=
      hrows ▸ pairwise_offset _
    have hle : first.offset ≤ r.offset := by
      rcases mem_cons.mp (hrows ▸ hself) with heq | hrest
      · exact heq ▸ le_refl _
      · exact (pairwise_cons.mp hsorted).1 r hrest
    have heq := eq_of_collide hplaces hfirst.1 hr
      ⟨hfirst.2.1.1, hfirst.2.1.2, le_antisymm hle hfirst.2.2⟩
    exact ⟨rest, by rw [heq]⟩

theorem decodeUntilClosed_ok
    (h : ∀ r ∈ rows, r.value = STREAM_CLOSED_SENTINEL ∨
      ∃ v, decode X s r.serialization r.value = .ok v) :
    ∃ out, decodeUntilClosed X s rows = .ok out := by
  induction rows with
  | nil => exact ⟨_, rfl⟩
  | cons r rows ih =>
    obtain ⟨out, hout⟩ := ih fun r' hr' => h r' (mem_cons_of_mem _ hr')
    by_cases hclosed : r.value = STREAM_CLOSED_SENTINEL
    · exact ⟨_, if_pos hclosed⟩
    · obtain ⟨v, hv⟩ := (h r mem_cons_self).resolve_left hclosed
      refine ⟨(v :: out.1, out.2), ?_⟩
      rw [decodeUntilClosed, if_neg hclosed, hv, hout]
      rfl

theorem stepOutcomeFrom_output {row : OperationRow} {text : String} (herror : row.error = none)
    (houtput : row.output = some text) : stepOutcomeFrom X s row =
      (decode X s row.serialization text).map fun v => some (.output v) := by
  rw [stepOutcomeFrom, herror, houtput]

theorem stepOutcomeFrom_error {text : String} (herror : row.error = some text) :
    stepOutcomeFrom X s row = .ok (some (.failure
      (decodeError X row.serialization text).1 (decodeError X row.serialization text).2)) := by
  rw [stepOutcomeFrom, herror]

/-- **Under the portable serializer only what needs no format reads the same.** -/
theorem formatless_of_sameReadings (h : (origin db w).Arrived db') (hX : X.Apart)
    (hstored : Stored X .portable db)
    (hsame : SameReadings X .portable db db' w.workflowUuid) :
    Formatless X db w.workflowUuid where
  outputs seq row hrow herror := by
    have hstep := hsame.steps seq
    unfold getStepResult at hstep
    rw [lookup_step_arrived h seq, hrow] at hstep
    cases houtput : row.output with
    | none => rfl
    | some text =>
      rcases hstored.operations _ row hrow with ⟨hnone, -⟩ | ⟨-, htagged⟩
      · exact absurd (hnone.symm.trans houtput) nofun
      · obtain ⟨e, v, he, hv⟩ := misread hX (htagged text houtput)
        have hread := @stepOutcomeFrom_output X .portable (untagged row) text herror houtput
        have harrived : stepOutcomeFrom X .portable (untagged row) = .error e :=
          hread.trans (congrArg (Except.map _) he)
        dsimp only [map_some] at hstep
        rw [harrived, stepOutcomeFrom_output herror houtput, hv] at hstep
        cases hstep
  errors seq row text hrow herror := by
    have hstep := hsame.steps seq
    unfold getStepResult at hstep
    rw [lookup_step_arrived h seq, hrow] at hstep
    rcases hstored.operations _ row hrow with ⟨-, hnone⟩ | ⟨hformat, -⟩
    · exact absurd (hnone.symm.trans herror) nofun
    · have hread : decodeError X row.serialization text = decodeError X (some PORTABLE) text :=
        congrArg (decodeError X · text) hformat
      have harrived : stepOutcomeFrom X .portable (untagged row) = _ := stepOutcomeFrom_error herror
      dsimp only [map_some] at hstep
      rw [harrived, stepOutcomeFrom_error herror, hread, decodeError, decodeError, if_pos rfl]
        at hstep
      cases henvelope : (X.fromText text).toOption.bind PortableWorkflowError.fromValue with
      | none => rfl
      | some env =>
        rw [henvelope] at hstep
        cases hstep
  events key := by
    have hevent := hsame.events key
    unfold getEventValue at hevent
    rw [lookup_event_arrived h key] at hevent
    cases hrow : db.workflowEvents.lookup (w.workflowUuid, key) with
    | none => rfl
    | some row =>
      obtain ⟨e, v, he, hv⟩ := misread hX (hstored.events _ row hrow)
      rw [hrow] at hevent
      dsimp only [map_some] at hevent
      rw [he, hv] at hevent
      cases hevent
  entries r hr hid := by
    by_contra hopen
    rcases hstored.entries r hr with hclosed | htagged
    · exact hopen hclosed
    · obtain ⟨e, v, he, hv⟩ := misread hX htagged
      obtain ⟨rest, hrest⟩ := streamFrom_eq_cons hstored.places hr
      have hstream : decodeUntilClosed X .portable (streamFrom db' w.workflowUuid r.key r.offset) =
          decodeUntilClosed X .portable (streamFrom db w.workflowUuid r.key r.offset) :=
        hsame.streams r.key r.offset
      obtain ⟨out, hout⟩ : ∃ out, decodeUntilClosed X .portable
          (streamFrom db r.workflowUuid r.key r.offset) = .ok out := by
        refine decodeUntilClosed_ok fun r' hr' => ?_
        rw [streamFrom, mem_mergeSort, mem_filter] at hr'
        exact (hstored.entries r' hr'.1).imp_right Tagged.reads
      have hfails : decodeUntilClosed X .portable ((r :: rest).map StreamRow.untagged) =
          .error e := by
        rw [map_cons, decodeUntilClosed, if_neg (show r.untagged.value ≠ _ from hopen)]
        change decode X .portable none r.value >>= _ = _
        rw [he]
        rfl
      rw [streamFrom_arrived h hstored.places, ← hid, hout, hrest, hfails] at hstream
      cases hstream

/-! ## The round trip -/

/-- **A workflow that is exported and imported into an empty database reads as it did**, if the
serializer is the default one or nothing of it needs its format, and otherwise does not.  The import
always succeeds; and the export does, unless the workflows below go round in a circle. -/
theorem import_export_iff (hX : X.Apart) (hs : s.BuiltIn) (hstored : Stored X s db)
    (hfits : db.Fits) (hrow : (db.workflowStatus.lookup id).isSome) (exportChildren : Bool) :
    ((exportChildren = true → Acc (fun y x => Traversal.Below (childrenOf db) x y) id) →
      ∃ fuel exported, exportWorkflow fuel id exportChildren db = some (.ok exported)) ∧
    ∀ fuel ids exported, exportedIds (childrenOf db) fuel id exportChildren = some ids →
      exportWorkflow fuel id exportChildren db = some (.ok exported) →
      ((∃ db', importWorkflow exported {} = (.ok (), db') ∧ ∀ y ∈ ids, SameReadings X s db db' y) ↔
        s = .json ∨ ∀ y ∈ ids, Formatless X db y) := by
  refine ⟨fun hacc => ?_, fun fuel ids exported hids hexport => ?_⟩
  · obtain ⟨fuel, ids, hids⟩ := exists_exportedIds hacc
    obtain ⟨exported, hexported⟩ := exports_exportRows.exists_mapM
      fun y hy => exists_row_of_listed hstored.rows.keyed hrow hids hy
    refine ⟨fuel, exported, ?_⟩
    rw [exportWorkflow, hids]
    exact congrArg some hexported
  · have hnodup : ids.Nodup := nodup_listed hstored.rows.keyed hids
    have hrows : exportRows db ids = .ok exported := by
      rw [exportWorkflow, hids, map_some] at hexport
      exact Option.some.inj hexport
    obtain ⟨db', himport, harrived⟩ :=
      arrived_of_import hstored.rows hstored.places hfits hnodup hrows
    constructor
    · rintro ⟨db'', himport', hsame⟩
      cases (Prod.mk.inj (himport.symm.trans himport')).2
      cases s with
      | json => exact .inl rfl
      | portable =>
        refine .inr fun y hy => ?_
        obtain ⟨w, -, rfl, h⟩ := harrived y hy
        exact formatless_of_sameReadings h hX hstored (hsame _ hy)
      | custom => exact hs.elim
    · intro hplain
      refine ⟨db', himport, fun y hy => ?_⟩
      obtain ⟨w, hw, rfl, h⟩ := harrived y hy
      rcases hplain with rfl | hplain
      · exact sameReadings_json hw h hstored
      · exact sameReadings_formatless hw h hstored (hplain _ hy)

end

/-! ## A step that is lost -/

/-- What serde_json writes for the envelope around null. -/
def nullEnvelope : String :=
  "\x7b\"positionalArgs\":[null],\"namedArgs\":\x7b\x7d\x7d"

/-- The codec of the crates at three values: 7, null, and the envelope around null. -/
def oneNumber : TextCodec where
  toText
    | .number (.int 7) => "7"
    | .null => "null"
    | _ => nullEnvelope
  fromText text :=
    if text = "7" then .ok (.number (.int 7))
    else if text = "null" then .ok .null
    else if text = nullEnvelope then .ok (envelopeOf .null)
    else .error "expected value at line 1 column 1"
  base64 text := text
  -- Of the three texts only null is base64, and its three bytes are no JSON.
  unbase64 text :=
    if text = "7" then .error "Invalid input length"
    else if text = "null" then .ok "\x9e\xe9e"
    else .error "Invalid symbol 123, offset 0."

theorem apart_oneNumber : oneNumber.Apart where
  nil _ h := by cases h
  unbase64 text inner v _ h := by
    dsimp only [oneNumber] at h
    split_ifs at h
    cases h
    exact ⟨_, rfl⟩

/-- A workflow that is about to charge. -/
def created : Db :=
  (call oneNumber .portable (.insertWorkflowStatus
    (.new ⟨0⟩ "w" "pay" .null .pending "local" "v1")) ⟨0⟩ "" {}).2

/-- The same workflow once its step has returned 7. -/
def charged : Db :=
  (call oneNumber .portable (.recordStepResult "w" 0 "charge" (.number (.int 7)) none none) ⟨0⟩ ""
    created).2

theorem stored_charged : Stored oneNumber .portable charged := by
  have hcreated : Stored oneNumber .portable created := stored_insertWorkflowStatus _ stored_empty
  have hrow : OperationTagged oneNumber .portable
      (resultRow .portable ⟨0⟩ "charge" (some "7") none none) :=
    Tagged.operation rfl ⟨rfl, .number (.int 7), rfl⟩
  have hinsert : insertOperation "w" 0 (resultRow .portable ⟨0⟩ "charge" (some "7") none none)
      created = .ok charged := rfl
  exact hcreated.insertOperation hrow hinsert

theorem fits_charged : charged.Fits where
  rows := by
    refine AList.forall_lookup_insert (fun _ _ h => by cases h) ?_
    refine ⟨fitsI64_zero, fitsI64_zero, fitsI64_zero, fitsI64_zero, ?_, ?_, ?_, ?_⟩
    all_goals exact fun _ h => by cases h
  operations id seq row h := by
    have hall : ∀ k row, charged.operationOutputs.lookup k = some row → FitsI64 k.2 ∧
        (∀ n ∈ row.startedAtEpochMs, FitsI64 n) ∧ ∀ n ∈ row.completedAtEpochMs, FitsI64 n := by
      refine AList.forall_lookup_insert (fun _ _ h => by cases h) ?_
      refine ⟨fitsI64_zero, fun _ h => (by cases h), fun n h => ?_⟩
      cases h
      exact fitsI64_zero
    exact hall (id, seq) row h
  entries _ h := by cases h

/-- The round trip at this workflow. -/
theorem import_export_iff_charged :
    (∃ exported, exportWorkflow 0 "w" false charged = some (.ok exported)) ∧
    ∀ exported, exportWorkflow 0 "w" false charged = some (.ok exported) →
      ((∃ db', importWorkflow exported {} = (.ok (), db') ∧
          ∀ y ∈ ["w"], SameReadings oneNumber .portable charged db' y) ↔
        Serializer.portable = .json ∨ ∀ y ∈ ["w"], Formatless oneNumber charged y) := by
  have hs : Serializer.BuiltIn .portable := trivial
  have hrow : (charged.workflowStatus.lookup "w").isSome := rfl
  have h := import_export_iff apart_oneNumber hs stored_charged fits_charged hrow false
  exact ⟨⟨_, rfl⟩, fun exported hexport => h.2 0 ["w"] exported rfl hexport⟩

/-- **A successful step does not survive the round trip**: it is read as 7 in the exporting
database, and not at all in the importing one. -/
theorem portable_output_lost : ∃ exported db',
    exportWorkflow 0 "w" false charged = some (.ok exported) ∧
    importWorkflow exported {} = (.ok (), db') ∧
    (getStepResult oneNumber .portable "w" 0 charged).1 =
      .ok (some ⟨"charge", .output (.number (.int 7))⟩) ∧
    (getStepResult oneNumber .portable "w" 0 db').1 =
      .error (.serialization "invalid base64 in DBOS_JSON value: Invalid input length") := by
  obtain ⟨exported, hexport⟩ : ∃ exported, exportRows charged ["w"] = .ok exported := ⟨_, rfl⟩
  obtain ⟨db', himport, harrived⟩ := arrived_of_import stored_charged.rows stored_charged.places
    fits_charged (nodup_singleton "w") hexport
  refine ⟨exported, db', congrArg some hexport, himport, rfl, ?_⟩
  obtain ⟨w, -, hid, h⟩ := harrived "w" (mem_singleton_self _)
  unfold getStepResult
  rw [← hid, lookup_step_arrived h 0, hid]
  rfl

end Sqlite

end Durare
