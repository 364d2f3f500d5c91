import Durare.Context.Executions
import Durare.Context.Footprints

/-!
# Context/Slots — an operation touches its own sequence numbers

Over the in-memory backend an operation that writes to no stream changes little of its workflow: it
may record rows at the sequence numbers it takes, and rows that are there stay (`changes_of_local`).
The log of a workflow is therefore divided among its operations, whatever they are.
-/

namespace Durare

open Verb

/-- An effect of an operation of the workflow `id` that takes the sequence numbers from `n` to `m`
and writes to no stream. -/
inductive Eff.Local (id : String) (n m : Int) : Eff → Prop where
  | within {e : Eff} (h : e.Within id n m) : Eff.Local id n m e
  | take {topic : String} {seq : Int} (h : n ≤ seq ∧ seq < m) :
      Eff.Local id n m (.provider (.consumeNotification id topic seq "DBOS.recv"))
  | child {e : Eff} (h : e.NewRun) : Eff.Local id n m e
  | spawn {id' key : String} {input : Value} {deadlineMs : Option Int} {auth : AuthContext} :
      Eff.Local id n m (.spawn id' key input deadlineMs auth)

namespace Memory

variable {X : TextCodec} {ctx : DurableContext}

/-- **An operation that writes to no stream keeps to its sequence numbers.** -/
theorem calls_local [Serde DateTime] {o : Op} (ho : o.stream = none) (s : CtxState) :
    (o.run (provider X) ctx s).Calls (Eff.Local ctx.workflowId s.seq (s.seq + o.width)) := by
  refine calls_op_within (fun _ => .within) (fun key value h => ?_) (fun topic h => .take ?_)
    ?_ fun _ _ => trivial
  · rw [ho] at h
    cases h
  · cases o with
    | recv => exact ⟨le_rfl, by rw [Op.width]; omega⟩
    | _ => cases h
  · rintro I _ name input opts rfl
    exact (takes_startWorkflow (.within trivial) (.within rfl)
      (fun _ _ => .within ⟨rfl, le_rfl, Int.lt_succ _⟩) (fun _ => .child)
      fun _ _ _ _ _ => .spawn).calls

/-- The workflow is not cancelled. -/
def Live (id : String) (g : Inner) : Prop :=
  (g.workflows.lookup id).map WorkflowStatus.status ≠ some .cancelled

/-- What may change of the workflow `id`: rows are recorded at the sequence numbers from `n` to
`m`. -/
structure Changes (id : String) (n m : Int) (g g' : Inner) : Prop where
  steps : g'.steps = g.steps ∨
    ∃ seq row, n ≤ seq ∧ seq < m ∧ g'.steps = g.steps.insertNew (id, seq) row
  streams : g'.streams = g.streams
  live : Live id g → Live id g'

theorem Changes.stays {id : String} {n m : Int} {g g' : Inner} (h : Changes id n m g g') {i : Int}
    {row : StepRow} (hrow : log g id i = some row) : log g' id i = some row := by
  obtain hsame | ⟨seq, new, -, -, hnew⟩ := h.steps
  · rw [log, hsame]
    exact hrow
  · rw [log, hnew]
    exact AList.lookup_insertNew_of_some hrow _ _

variable {id : String}

theorem Changes.off {n m : Int} {g g' : Inner} (h : Changes id n m g g') {i : Int}
    (hi : i < n ∨ m ≤ i) : log g' id i = log g id i := by
  obtain hsame | ⟨seq, new, hn, hm, hnew⟩ := h.steps
  · rw [log, hsame, log]
  · rw [log, hnew, AList.lookup_insertNew, if_neg, log]
    intro heq
    cases heq
    omega

theorem changes_insert {n m : Int} {status : WorkflowStatus} {g : Inner}
    (hinitial : status.status.initial = true) :
    Changes id n m g (insertWorkflowStatus status g).2 := by
  have hsame : Changes id n m g g := ⟨.inl rfl, rfl, fun h => h⟩
  obtain ⟨_, _, -, -, -, heq⟩ | ⟨-, heq⟩ := insertWorkflowStatus_cases status g
  · rw [heq]
    exact hsame
  · rw [heq, insertWorkflowStatus.insert]
    split
    · exact hsame
    · refine ⟨.inl rfl, rfl, fun h => ?_⟩
      by_cases hid : id = status.id
      · subst hid
        rw [Live, AList.lookup_insert]
        intro hcancelled
        rw [Option.some.inj hcancelled] at hinitial
        cases hinitial
      · rw [Live, AList.lookup_insert_ne hid]
        exact h

/-- **A local effect changes the workflow at its sequence numbers only.** -/
theorem changes_of_local {n m : Int} {e : Eff} (he : e.Local id n m) {w w' : World Inner}
    {r : Answer e} (h : (provider X).handle e w r w') : Changes id n m w.store w'.store := by
  have hsame : Changes id n m w.store w.store := ⟨.inl rfl, rfl, fun h => h⟩
  cases he with
  | child hrun =>
    cases hrun with
    | insert =>
      obtain ⟨_, -, rfl⟩ := Provider.handle_provider.mp h
      exact changes_insert newRun_initial
  | spawn =>
    obtain rfl : w' = w := h
    exact hsame
  | @take topic seq hseq =>
    obtain ⟨-, rfl, -⟩ | ⟨_, _, -, rfl, -⟩ := handle_consumeNotification h
    · exact hsame
    · exact ⟨.inr ⟨seq, _, hseq.1, hseq.2, rfl⟩, rfl, fun h => h⟩
  | within hin =>
    cases e with
    | provider c =>
      obtain ⟨uuid, -, rfl⟩ := Provider.handle_provider.mp h
      cases c with
      | recordStepResult | recordChildWorkflow | recordPatch =>
        obtain ⟨rfl, hn, hm⟩ := hin
        exact ⟨.inr ⟨_, _, hn, hm, rfl⟩, rfl, fun h => h⟩
      | insertNotification dest topic message key =>
        obtain ⟨-, heq⟩ | ⟨-, -, heq⟩ | ⟨-, -, heq⟩ :=
          insertNotification_cases w.clock uuid dest topic message key w.store
        all_goals
          change Changes id n m w.store
            (insertNotification w.clock uuid dest topic message key w.store).2
          rw [heq]
        · exact hsame
        · exact hsame
        · exact ⟨.inl rfl, rfl, fun h => h⟩
      | getWorkflowStatus | getStepResult | upsertEvent | getEventValue | checkChildWorkflow
      | getStepName => exact ⟨.inl rfl, rfl, fun h => h⟩
      | _ => exact hin.elim
    | utcNow | produceNow | race | elapsed =>
      obtain ⟨-, rfl⟩ := h
      exact hsame
    | sql q => exact h.1.elim
    | _ =>
      obtain rfl : w' = w := h
      exact hsame

end Memory

end Durare
