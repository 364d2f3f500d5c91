import Durare.Context.ReplaySpecs

/-!
# Context/Replay — re-execution reads the log it left

One execution at a time over the in-memory backend, crashing anywhere, for every workflow built from
the checkpointed operations.  The invariant `Inv` ties three things together: the log is consistent
with the program, it leads from the program's beginning to where the execution is, and the operation
under way meets its specification.

Every step keeps the invariant (`inv_step`), and from it: user code runs only at a sequence number
without a row, an operation returns the outcome recorded at its sequence number, the workflow's
result is the pure evaluation of the program against the log, and no row ever changes.
-/

namespace Durare.Replay

open Memory

variable {s : CtxState} {w : World Inner}

section

variable [Serde DateTime] {R : Type} {X : TextCodec} {ctx : DurableContext}
  {p : Workflow String R}

/-- What holds of an execution in its world. -/
def Running (X : TextCodec) (ctx : DurableContext) (p : Workflow String R) (w : World Inner) :
    Exec String R → Prop
  | .at q s => Program.Path recorder (rows ctx w) p 0 q s.seq
  | .inside o s proc k => Program.Path recorder (rows ctx w) p 0 (.op o k) s.seq ∧
      Proc.Safe (judge X ctx o s.seq) proc (fun r => Post ctx o s.seq r.1 r.2) w
  | .finished r => Program.eval recorder (rows ctx w) p 0 = some r

/-- The invariant of one execution at a time. -/
structure Inv (X : TextCodec) (ctx : DurableContext) (p : Workflow String R)
    (c : Single String R Inner) : Prop where
  calm : Calm ctx c.world
  consistent : Program.Consistent recorder (rows ctx c.world) p 0
  running : Running X ctx p c.world c.exec

/-- What can be promised of one step from a state that satisfies the invariant. -/
structure Promise (ctx : DurableContext) (p : Workflow String R) (c : Single String R Inner)
    (l : Label R Inner) (c' : Single String R Inner) : Prop where
  /-- user code runs only at a sequence number without a row -/
  closure : ∀ seq ev, l = .inside seq (some ev) → ev.call.RunsClosure →
    rows ctx c.world seq = none
  /-- an operation returns the outcome recorded at its sequence number -/
  returned : ∀ o seq r, l = .returned o seq r → o.width ≠ 0 →
    ∃ row, rows ctx c.world seq = some row ∧
      r.mapError Error.message = (o.recorded row).mapError Error.message
  /-- the result is the pure evaluation of the program against the log -/
  finish : ∀ r, l = .finish r → Program.eval recorder (rows ctx c.world) p 0 = some r
  /-- no row changes -/
  rows : ∀ n row, rows ctx c.world n = some row → rows ctx c'.world n = some row

theorem Running.env {w w' : World Inner} {e : Exec String R} (henv : Env ctx w w')
    (h : Running X ctx p w e) : Running X ctx p w' e := by
  cases e with
  | «at» q s =>
    simp only [Running, henv.rows_eq] at h ⊢
    exact h
  | inside o s proc k =>
    refine ⟨?_, h.2.env (fun h h' => h.trans h') henv⟩
    rw [henv.rows_eq]
    exact h.1
  | finished r =>
    simp only [Running, henv.rows_eq] at h ⊢
    exact h

/-- An operation begun where the log leads starts from its precondition. -/
theorem inv_begin [LawfulSerde DateTime] (hp : p.All Replayable) {o : Op}
    {k : Except String o.Result → Workflow String R} (h : Inv X ctx p ⟨w, .at (.op o k) s⟩) :
    Inv X ctx p ⟨w, .inside o s (o.run (provider X) ctx s) k⟩ := by
  have hpath : Program.Path recorder (rows ctx w) p 0 (.op o k) s.seq := h.running
  have hcons := hpath.consistent h.consistent
  exact ⟨h.calm, h.consistent, hpath, w, .refl ctx w,
    spec_run (hpath.all hp).1 rfl ⟨h.calm, hcons.1⟩⟩

/-- A step inside an operation keeps the invariant, and its effect the guarantee. -/
theorem inv_inside {w' : World Inner} {o : Op} {k : Except String o.Result → Workflow String R}
    {proc proc' : Proc Eff Answer (Except Error o.Result × CtxState)}
    {e : Option (Proc.Event Eff Answer (World Inner))} (h : Inv X ctx p ⟨w, .inside o s proc k⟩)
    (hstep : Proc.Step (provider X).handle proc w e proc' w') :
    Inv X ctx p ⟨w', .inside o s proc' k⟩ ∧
      (∀ ev, e = some ev → ev.call.RunsClosure → rows ctx w s.seq = none) ∧
      (∀ n row, rows ctx w n = some row → rows ctx w' n = some row) := by
  obtain ⟨hpath, hsafe⟩ := h.running
  obtain ⟨hguar, hsafe'⟩ := Proc.wp_step (Env.refl ctx) hsafe hstep
  cases hstep with
  | unfold => exact ⟨⟨h.calm, h.consistent, hpath, hsafe'⟩, by rintro _ ⟨⟩, fun _ _ h => h⟩
  | call hr =>
    obtain ⟨hclosure, hext, hcalm⟩ := hguar _ rfl
    refine ⟨⟨hcalm h.calm, Program.consistent_extends hpath rfl hext h.consistent,
      hpath.mono hext.keeps, hsafe'⟩, ?_, hext.keeps⟩
    rintro _ ⟨rfl⟩ hrun
    exact hclosure hrun

/-- An operation that returns has its result as the log's answer. -/
theorem inv_returned {o : Op} {s' : CtxState} {k : Except String o.Result → Workflow String R}
    {r : Except Error o.Result} (h : Inv X ctx p ⟨w, .inside o s (.ret (r, s')) k⟩) :
    Inv X ctx p ⟨w, .at (k (r.mapError Error.message)) s'⟩ ∧
      Program.answer recorder (rows ctx w) o s.seq = some (r.mapError Error.message) := by
  obtain ⟨hpath, w₀, henv, hseq, -, hans⟩ := h.running
  rw [← henv.rows_eq] at hans
  refine ⟨⟨h.calm, h.consistent, ?_⟩, hans⟩
  have hnext := hpath.snoc rfl hans
  change Program.Path recorder (rows ctx w) p 0 _ s'.seq
  rw [show s'.seq = s.seq + (recorder o).width from hseq]
  exact hnext

/-- **Every step keeps the invariant and its promise.** -/
theorem inv_step [LawfulSerde DateTime] (hp : p.All Replayable)
    {c c' : Single String R (provider X).State} {l : Label R (provider X).State}
    (hs : Single.Step (provider X) ctx Error.message p (Env ctx) c l c') (h : Inv X ctx p c) :
    Inv X ctx p c' ∧ Promise ctx p c l c' := by
  cases hs with
  | restart => exact ⟨⟨h.calm, h.consistent, .nil⟩, by constructor <;> simp⟩
  | env henv =>
    have hrows := henv.rows_eq
    refine ⟨⟨henv.calm h.calm, ?_, Running.env henv h.running⟩, ?_⟩
    · simp only [hrows]
      exact h.consistent
    · constructor <;> simp [hrows]
  | exec hexec =>
    cases hexec with
    | begin => exact ⟨inv_begin hp h, by constructor <;> simp⟩
    | inside hstep =>
      obtain ⟨hinv, hclosure, hrows⟩ := inv_inside h hstep
      refine ⟨hinv, ⟨?_, by simp, by simp, hrows⟩⟩
      rintro seq ev ⟨rfl, rfl⟩ hrun
      exact hclosure _ rfl hrun
    | returned =>
      obtain ⟨hinv, hans⟩ := inv_returned h
      refine ⟨hinv, ⟨by simp, ?_, by simp, fun _ _ h => h⟩⟩
      rintro o seq r ⟨rfl, rfl, rfl⟩ hwidth
      exact Program.row_of_answer hwidth hans
    | finish =>
      have heval := h.running.eval_eq
      refine ⟨⟨h.calm, h.consistent, heval⟩, ⟨by simp, by simp, ?_, fun _ _ h => h⟩⟩
      rintro r ⟨rfl⟩
      exact heval

/-- **Replay is correct.**  Whatever the closures answer, wherever the execution crashes and
whatever the rest of the system does: user code runs only at a sequence number without a row, every
operation returns the outcome recorded at its sequence number, the result of the workflow is the
program evaluated against the log, and recorded rows stay. -/
theorem replay_correct [LawfulSerde DateTime] (hp : p.All Replayable) {w₀ : World Inner}
    (hfresh : ∀ n, rows ctx w₀ n = none) (hcalm : Calm ctx w₀) {c c' : Single String R Inner}
    {l : Label R Inner}
    (hr : Single.Reachable (provider X) ctx Error.message p (Env ctx) w₀ c)
    (hs : Single.Step (provider X) ctx Error.message p (Env ctx) c l c') :
    Promise ctx p c l c' := by
  have hinit : Inv X ctx p ⟨w₀, .at p {}⟩ :=
    ⟨hcalm, Program.consistent_of_empty p 0 fun n _ => hfresh n, .nil⟩
  exact (inv_step hp hs (hr.invariant hinit fun _ _ _ hstep h => (inv_step hp hstep h).1)).2

end

/-! ## A run -/

section

attribute [local instance] serdeNanos lawful_serdeNanos

/-- One step, whose outcome is the workflow's result. -/
def greet : Workflow String (Except String String) := .op (.step String "greet") .done

/-- The closure answers `"hello"`, the row is written, the execution is lost before the step
returns, and the next one returns the recorded `"hello"`. -/
theorem replay_correct_greet : ∃ w,
    Single.Reachable (provider noText) wfContext Error.message greet (Env wfContext) ⟨{}, ⟨0⟩⟩
      ⟨w, .at (.done (.ok "hello")) { seq := 1 }⟩ ∧
    Program.eval recorder (rows wfContext w) greet 0 = some (.ok "hello") := by
  have hstart : Single.Reachable (provider noText) wfContext Error.message greet (Env wfContext)
      ⟨{}, ⟨0⟩⟩ ⟨⟨{}, ⟨0⟩⟩, .at greet {}⟩ := .start
  have hrecorded := hstart.exec .begin
    |>.exec (.inside (.call told)) |>.exec (.inside (.call told))
    |>.exec (.inside (.call ⟨rfl, rfl⟩))
    |>.exec (.inside (.call (r := .returned (.ok "hello")) rfl))
    |>.exec (.inside (.call told))
  have hw := hrecorded.restart |>.exec .begin |>.exec (.inside (.call told)) |>.exec .returned
  have hp : greet.All Replayable := ⟨inferInstanceAs (LawfulSerde String), fun _ => trivial⟩
  have hcalm : Calm wfContext ⟨{}, ⟨0⟩⟩ :=
    ⟨fun _ h => (nomatch h), fun _ h => (nomatch h), fun _ _ h => (nomatch h)⟩
  exact ⟨_, hw, (replay_correct hp (fun n => rfl) hcalm hw (.exec .finish)).finish _ rfl⟩

end

end Durare.Replay
