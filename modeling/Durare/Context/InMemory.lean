import Durare.Context.Verbs
import Durare.Store.Memory

/-!
# Context/InMemory — the in-memory backend behind the trait

`Memory.provider` routes each call of the trait to its method.  The lemmas say what a call does to a
world, one per call that the durable operations make: its answer, and the one table it changes.
-/

namespace Durare.Memory

/-- The methods of `InMemoryProvider`, by call. -/
def call : (c : ProviderCall) → DateTime → String → Inner → Except Error c.Result × Inner
  | .insertWorkflowStatus status, _, _ => insertWorkflowStatus status
  | .getDeduplicatedWorkflow queue dedup, _, _ => getDeduplicatedWorkflow queue dedup
  | .getWorkflowStatus id, _, _ => getWorkflowStatus id
  | .setWorkflowStatus id status output error, now, _ =>
    setWorkflowStatus now id status output error
  | .getStepResult id seq, _, _ => getStepResult id seq
  | .recordStepResult id seq name value error started, now, _ =>
    recordStepResult now id seq name value error started
  | .insertNotification dest topic message key, now, uuid =>
    insertNotification now uuid dest topic message key
  | .consumeNotification id topic seq name, _, _ => consumeNotification id topic seq name
  | .upsertEvent id key value, _, _ => upsertEvent id key value
  | .getEventValue id key, _, _ => getEventValue id key
  | .recordChildWorkflow parent seq name child, _, _ => recordChildWorkflow parent seq name child
  | .checkChildWorkflow parent seq, _, _ => checkChildWorkflow parent seq
  | .getStepName id seq, _, _ => getStepName id seq
  | .recordPatch id seq name, _, _ => recordPatch id seq name
  | .writeStream id key value _, _, _ => writeStream id key value
  | .cancelWorkflow id, now, _ => cancelWorkflow now id
  | .cancelWorkflows ids, now, _ => cancelWorkflows now ids
  | .resumeWorkflow id, now, _ => resumeWorkflow now id
  | .resumeWorkflows ids, now, _ => resumeWorkflows now ids
  | .enqueueExisting id queue, now, _ => enqueueExisting now id queue
  | .bumpRecoveryAttempts id max, now, _ => bumpRecoveryAttempts now id max
  | .dequeueWorkflows req, now, _ => dequeueWorkflows now req
  | .transitionDelayedWorkflows nowMs, now, _ => transitionDelayedWorkflows now nowMs
  | .queuePartitions queue, _, _ => queuePartitions queue
  | .listWorkflows filter, _, _ => listWorkflows filter
  | .deleteWorkflows ids children, _, _ => deleteWorkflows ids children

/-- The in-memory backend: the default serializer, no push signals, no SQL. -/
def provider (X : TextCodec) : Provider where
  State := Inner
  serializer := .json
  text := X
  supportsListenNotify := false
  call := call
  runTransactionStep _ _ _ _ := .ret runTransactionStep
  sql _ _ _ _ := False

/-- The recorded rows of one workflow, by sequence number. -/
def log (g : Inner) (id : String) (seq : Int) : Option StepRow := g.steps.lookup (id, seq)

/-- The row of a workflow at a sequence number stays as it is. -/
def Kept (id : String) (n : Int) (w w' : World Inner) : Prop := log w'.store id n = log w.store id n

theorem Kept.trans {id : String} {n : Int} {a b c : World Inner} (h : Kept id n a b)
    (h' : Kept id n b c) : Kept id n a c := Eq.trans h' h

variable {X : TextCodec} {w w' : World Inner} {id : String} {seq : Int}

/-! ## Recording a row -/

theorem log_insertNew {g : Inner} {m n : Int} {row : StepRow} (hm : m ≠ n) :
    log { g with steps := g.steps.insertNew (id, m) row } id n = log g id n := by
  simp only [log, AList.lookup_insertNew, Prod.mk.injEq, true_and, if_neg hm.symm]

theorem log_insertNew_self {g : Inner} {row : StepRow} (h : log g id seq = none) :
    log { g with steps := g.steps.insertNew (id, seq) row } id seq = some row := by
  rw [log] at h
  rw [log, AList.lookup_insertNew_self, h, Option.getD_none]

/-! ## What a call answers and changes -/

theorem handle_getStepResult {r : Except Error (Option RecordedStep)}
    (h : (provider X).handle (.provider (.getStepResult id seq)) w r w') :
    w' = w ∧ r = .ok ((log w.store id seq).map fun row => ⟨row.name, stepRowOutcome row⟩) := by
  obtain ⟨_, rfl, rfl⟩ := Provider.handle_provider.mp h
  exact ⟨rfl, rfl⟩

theorem handle_getWorkflowStatus {r : Except Error (Option WorkflowStatus)}
    (h : (provider X).handle (.provider (.getWorkflowStatus id)) w r w') :
    w' = w ∧ r = .ok (w.store.workflows.lookup id) := by
  obtain ⟨_, rfl, rfl⟩ := Provider.handle_provider.mp h
  exact ⟨rfl, rfl⟩

variable {r : Except Error (Option Value)}

theorem handle_getEventValue {key : String}
    (h : (provider X).handle (.provider (.getEventValue id key)) w r w') :
    w' = w ∧ r = .ok (w.store.events.lookup (id, key)) := by
  obtain ⟨_, rfl, rfl⟩ := Provider.handle_provider.mp h
  exact ⟨rfl, rfl⟩

theorem handle_recordStepResult {name : String} {value : Value} {error : Option String}
    {started : Option Int} {r : Except Error StepOutcome}
    (h : (provider X).handle (.provider (.recordStepResult id seq name value error started)) w r
      w') :
    let row := resultRow w.clock name value error started
    w' = { w with store := { w.store with steps := w.store.steps.insertNew (id, seq) row } } ∧
      r = .ok (stepRowOutcome ((log w.store id seq).getD row)) := by
  obtain ⟨_, rfl, rfl⟩ := Provider.handle_provider.mp h
  exact ⟨rfl, rfl⟩

theorem handle_upsertEvent {key : String} {value : Value} {r : Except Error Unit}
    (h : (provider X).handle (.provider (.upsertEvent id key value)) w r w') :
    w' = { w with store := { w.store with events := w.store.events.insert (id, key) value } } ∧
      r = .ok () := by
  obtain ⟨_, rfl, rfl⟩ := Provider.handle_provider.mp h
  exact ⟨rfl, rfl⟩

/-- A consumption finds the mailbox empty, or takes its oldest message. -/
theorem handle_consumeNotification {topic name : String}
    (h : (provider X).handle (.provider (.consumeNotification id topic seq name)) w r w') :
    (oldest w.store.notifications id topic = none ∧ w' = w ∧ r = .ok none) ∨
    ∃ n i, oldest w.store.notifications id topic = some (n, i) ∧
      let row : StepRow := { name := name, output := some n.message }
      w' = { w with store := { w.store with
        notifications := markConsumed w.store.notifications i
        steps := w.store.steps.insertNew (id, seq) row } } ∧
      r = .ok (some ((((log w.store id seq).getD row).output).getD .null)) := by
  obtain ⟨_, rfl, rfl⟩ := Provider.handle_provider.mp h
  cases ho : oldest w.store.notifications id topic with
  | none => exact .inl ⟨rfl, by simp [provider, call, consumeNotification, ho],
      by simp [provider, call, consumeNotification, ho]⟩
  | some e => exact .inr ⟨e.1, e.2, rfl, by simp [provider, call, consumeNotification, ho],
      by simp [provider, call, consumeNotification, ho, log]⟩

theorem oldest_mem {l : List NotificationRow} {topic : String} {n : NotificationRow} {i : Nat}
    (h : oldest l id topic = some (n, i)) :
    l[i]? = some n ∧ n.consumed = false ∧ n.destinationId = id ∧ n.topic = topic := by
  have hmem := List.minOn?_mem h
  simp only [List.mem_filter, Bool.and_eq_true, Bool.not_eq_true', decide_eq_true_eq] at hmem
  exact ⟨List.mk_mem_zipIdx_iff_getElem?.mp hmem.1, hmem.2.1.1, hmem.2.1.2, hmem.2.2⟩

end Durare.Memory
