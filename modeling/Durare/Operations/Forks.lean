import Durare.Context.Replay
import Durare.Operations.StepLog
import Durare.Store.Portable

/-!
# Operations/Forks — what a fork writes, and over what

A fork makes a row under a new id and copies the checkpoints of the original below a step.  Under an
id about which nothing is stored, that is all there is then (`log_fork`).  So it resumes where it
was forked (`fork_resumes`).

Under an id that has a row the SQLite backend refuses: its `INSERT` violates the primary key.  The
in-memory backend writes with `insert`, and looks only for the original.  So it refuses exactly if
that is missing (`fork_refused_iff`).
-/

namespace Durare

namespace Memory

variable {g : Inner} {now : DateTime} {params : ForkParams} {original : WorkflowStatus}

/-! ## The new workflow -/

theorem forkWorkflow_eq (h : g.workflows.lookup params.originalId = some original) :
    forkWorkflow now params g = (.ok (), { g with
      workflows := g.workflows.insert params.newId (forkRow now params original)
      steps := insertAll g.steps (copiedSteps params g.steps) }) := by
  unfold forkWorkflow
  rw [h]

/-- **The log of a fork** onto an id without a log: the original's, up to the step. -/
theorem log_fork (h : g.workflows.lookup params.originalId = some original)
    (hfresh : ∀ seq, log g params.newId seq = none) :
    log (forkWorkflow now params g).2 params.newId =
      Program.cut (log g params.originalId) params.startStep := by
  funext seq
  rw [forkWorkflow_eq h]
  have hcopies {row : StepRow} : ((params.newId, seq), row) ∈ copiedSteps params g.steps ↔
      Program.cut (log g params.originalId) params.startStep seq = some row := by
    simp only [copiedSteps, List.mem_map, List.mem_filter, Bool.and_eq_true, decide_eq_true_eq,
      Program.cut, Option.ite_none_right_eq_some]
    constructor
    · rintro ⟨⟨⟨id, seq'⟩, row'⟩, ⟨hmem, rfl, hlt⟩, heq⟩
      cases heq
      exact ⟨hlt, AList.mem_lookup_iff.mpr hmem⟩
    · rintro ⟨hlt, hrow⟩
      exact ⟨⟨(params.originalId, seq), row⟩, ⟨AList.mem_lookup_iff.mp hrow, rfl, hlt⟩, rfl⟩
  cases hrow : Program.cut (log g params.originalId) params.startStep seq with
  | some row =>
    refine lookup_insertAll_of_mem (hcopies.mpr hrow) (fun b hb => ?_) g.steps
    exact Option.some.inj ((hcopies.mp hb).symm.trans hrow)
  | none =>
    refine (lookup_insertAll_of_ne ?_ g.steps).trans (hfresh seq)
    rintro ⟨k, row⟩ hmem rfl
    rw [hcopies.mp hmem] at hrow
    cases hrow

section

open Replay

variable [Serde DateTime] [LawfulSerde DateTime] {R : Type} {X : TextCodec}
  {ctx ctx' : DurableContext} {p : Workflow String R} {c d d' : Single String R Inner}
  {l : Label R Inner} {w₀ w : World Inner}

/-- **A fork resumes where it was forked.**  Wherever the original has come to, the fork begins with
what is recorded for it below the step, and nothing else.  From then on it keeps that, returns what
is recorded, and runs user code only where nothing is. -/
theorem fork_resumes (hp : p.All Replayable) (hempty : ∀ n, rows ctx w₀ n = none)
    (hcalm : Calm ctx w₀)
    (hrun : Single.Reachable (provider X) ctx Error.message p (Env ctx) w₀ c)
    (hrow : c.world.store.workflows.lookup ctx.workflowId = some original)
    (hw : w.store = (forkWorkflow now params c.world.store).2)
    (horiginal : params.originalId = ctx.workflowId) (hnew : params.newId = ctx'.workflowId)
    (hfresh : ∀ n, rows ctx' c.world n = none)
    (hfork : Single.Reachable (provider X) ctx' Error.message p (Env ctx') w d)
    (hstep : Single.Step (provider X) ctx' Error.message p (Env ctx') d l d') :
    rows ctx' w = Program.cut (rows ctx c.world) params.startStep ∧
      (∀ n row, rows ctx' w n = some row → rows ctx' d.world n = some row) ∧
      Replay.Promise ctx' p d l d' := by
  have hinit : Replay.Inv X ctx p ⟨w₀, .at p {}⟩ :=
    ⟨hcalm, Program.consistent_of_empty p 0 fun n _ => hempty n, .nil⟩
  have hinv := hrun.invariant hinit fun _ _ _ hs h => (inv_step hp hs h).1
  rw [← horiginal] at hrow
  have hcut : rows ctx' w = Program.cut (rows ctx c.world) params.startStep := by
    simp only [rows, hw, ← hnew, ← horiginal] at hfresh ⊢
    exact log_fork hrow hfresh
  have hforked : Replay.Inv X ctx' p ⟨w, .at p {}⟩ := by
    rw [forkWorkflow_eq hrow] at hw
    refine ⟨⟨?_, ?_, ?_⟩, ?_, .nil⟩
    · rw [hw, ← hnew, AList.lookup_insert]
      rintro _ ⟨⟩ ⟨⟩
    · exact hw ▸ hinv.calm.messages
    · exact hw ▸ hinv.calm.events
    · exact hcut ▸ Program.consistent_cut _ p 0 hinv.consistent
  have hd : Replay.Inv X ctx' p d ∧
      ∀ n row, rows ctx' w n = some row → rows ctx' d.world n = some row := by
    clear hstep
    induction hfork with
    | refl => exact ⟨hforked, fun _ _ h => h⟩
    | tail _ hlast ih =>
      obtain ⟨_, hs⟩ := hlast
      obtain ⟨hi, hpromise⟩ := inv_step hp hs ih.1
      exact ⟨hi, fun n row hrow => hpromise.rows n row (ih.2 n row hrow)⟩
  exact ⟨hcut, hd.2, (inv_step hp hstep hd.1).2⟩

end

end Memory

/-! ## An id that is taken -/

theorem Sqlite.fork_refused {db : Sqlite.Db} {now : DateTime} {params : Memory.ForkParams}
    (h : (db.workflowStatus.lookup params.newId).isSome) :
    (∃ e, (Sqlite.forkWorkflow now params db).1 = .error e) ∧
      (Sqlite.forkWorkflow now params db).2 = db := by
  unfold Sqlite.forkWorkflow
  split
  · exact ⟨⟨_, rfl⟩, rfl⟩
  · rw [if_pos h]
    exact ⟨⟨_, rfl⟩, rfl⟩

/-- **A fork onto an id that has a row is refused** by the SQLite backend.  The in-memory backend
refuses one exactly if the original has no row. -/
theorem Memory.fork_refused_iff {g : Memory.Inner} {params : Memory.ForkParams} {db : Sqlite.Db}
    (hdb : (db.workflowStatus.lookup params.newId).isSome) (now : DateTime) :
    (((∃ e, (Memory.forkWorkflow now params g).1 = .error e) ∧
      (Memory.forkWorkflow now params g).2 = g) ↔ g.workflows.lookup params.originalId = none) ∧
    (∃ e, (Sqlite.forkWorkflow now params db).1 = .error e) ∧
      (Sqlite.forkWorkflow now params db).2 = db := by
  refine ⟨?_, Sqlite.fork_refused hdb⟩
  constructor
  · rintro ⟨⟨e, he⟩, -⟩
    cases horiginal : g.workflows.lookup params.originalId with
    | none => rfl
    | some original =>
      rw [Memory.forkWorkflow_eq horiginal] at he
      cases he
  · intro hnone
    unfold Memory.forkWorkflow
    rw [hnone]
    exact ⟨⟨_, rfl⟩, rfl⟩

/-! ## Instances -/

namespace Memory

/-- A workflow that is about to greet. -/
def toGreet : Inner where
  workflows := AList.insert "wf" (.new ⟨0⟩ "wf" "pay" .null .pending "local" "") ∅

/-- A workflow that has succeeded. -/
def succeeded : Inner where
  workflows := AList.insert "wf" { WorkflowStatus.new ⟨0⟩ "wf" "pay" .null .success "local" "" with
    output := some (.bool true), completedAtMs := some 0 } ∅

theorem reaches_succeeded : Reaches noText (fun _ _ => True) {} succeeded := by
  have hstart : Step noText (fun _ _ => True) {} toGreet :=
    ⟨.call (.insertWorkflowStatus (.new ⟨0⟩ "wf" "pay" .null .pending "local" "")), ⟨0⟩, "",
      trivial, rfl⟩
  have hsucceed : Step noText (fun _ _ => True) toGreet succeeded :=
    ⟨.call (.setWorkflowStatus "wf" .success (some (.bool true)) none), ⟨0⟩, "", trivial, rfl⟩
  exact (Relation.ReflTransGen.single hstart).tail hsucceed

section

open Replay

attribute [local instance] serdeNanos lawful_serdeNanos

/-- A workflow has greeted and is forked behind that step: the fork has the greeting. -/
theorem fork_resumes_greet : ∃ (c : Single String (Except String String) Inner) (row : StepRow),
    Single.Reachable (provider noText) wfContext Error.message greet (Env wfContext)
      ⟨toGreet, ⟨0⟩⟩ c ∧ row.output = some (.string "hello") ∧
    rows ⟨"fork", wfContext.auth, wfContext.runtime⟩
      ⟨(forkWorkflow ⟨0⟩ ⟨"wf", "fork", 1, none, "q", none⟩ c.world.store).2, ⟨0⟩⟩
        0 = some row := by
  have hp : greet.All Replayable := ⟨inferInstanceAs (LawfulSerde String), fun _ => trivial⟩
  have hcalm : Calm wfContext ⟨toGreet, ⟨0⟩⟩ :=
    ⟨fun _ h => by cases h; nofun, nofun, fun _ _ h => nomatch h⟩
  have hstart : Single.Reachable (provider noText) wfContext Error.message greet (Env wfContext)
      ⟨toGreet, ⟨0⟩⟩ ⟨⟨toGreet, ⟨0⟩⟩, .at greet {}⟩ := .start
  have hgreeted := hstart.exec .begin
    |>.exec (.inside (.call told)) |>.exec (.inside (.call told))
    |>.exec (.inside (.call ⟨rfl, rfl⟩))
    |>.exec (.inside (.call (r := .returned (.ok "hello")) rfl))
    |>.exec (.inside (.call told))
  have hfork {n : Int} : (("fork", n) : String × Int) ≠ ("wf", 0) := by simp
  refine ⟨_, _, hgreeted, rfl, congrFun (And.left <| fork_resumes (w := ⟨_, ⟨0⟩⟩) hp (fun _ => rfl)
    hcalm hgreeted rfl rfl rfl rfl (fun n => ?_) .start .restart) 0⟩
  exact @AList.lookup_insert_ne _ _ _ _ _ (resultRow ⟨0⟩ "greet" (.string "hello") none (some 0)) _
    hfork

end

/-- A fork of a workflow that is not there. -/
theorem fork_refused_iff_missing :
    (forkWorkflow ⟨0⟩ ⟨"gone", "wf", 0, none, "q", none⟩ succeeded).2 = succeeded := by
  let row := Sqlite.insertedRow noText .json (.new ⟨0⟩ "wf" "pay" .null .success "local" "") "null"
  let db : Sqlite.Db := { workflowStatus := AList.insert "wf" row ∅ }
  have hdb : (db.workflowStatus.lookup "wf").isSome := rfl
  have hrefused := @fork_refused_iff succeeded ⟨"gone", "wf", 0, none, "q", none⟩ db hdb ⟨0⟩
  exact (hrefused.1.mpr rfl).2

/-- **A fork onto an id that has a row overwrites it**: the workflow that had succeeded, forked onto
itself, is enqueued again and its result is lost. -/
theorem fork_overwrites :
    Reaches noText (fun _ _ => True) {} succeeded ∧
    (∃ row, succeeded.workflows.lookup "wf" = some row ∧ row.output = some (.bool true)) ∧
    (forkWorkflow ⟨1⟩ ⟨"wf", "wf", 0, none, "q", none⟩ succeeded).1 = .ok () ∧
    ∃ row, (forkWorkflow ⟨1⟩ ⟨"wf", "wf", 0, none, "q", none⟩ succeeded).2.workflows.lookup "wf" =
      some row ∧ row.status = .enqueued ∧ row.output = none :=
  ⟨reaches_succeeded, ⟨_, rfl, rfl⟩, rfl, _, rfl, rfl, rfl⟩

end Memory

end Durare
