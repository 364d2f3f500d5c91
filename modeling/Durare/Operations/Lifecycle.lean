import Durare.Engine.Footprints
import Durare.Operations.System

/-!
# Operations/Lifecycle — what the columns of a row say about its status

A row says when its workflow ended and how it ended, in columns that are written apart from its
status.  `ByEngine` is what the engine asks of the backend; over any sequence of such operations

* a row is dated iff its status is terminal, as long as no recovery parks a live row, no row is put
  on a queue again after it has ended, and no finished workflow is imported (`KeepsDates`);
* a row with an outcome has that outcome and no other, as long as an outcome is recorded where no
  other one is left over (`FindsNoOther`).

A resume clears neither output nor error: what an execution left there before it was cancelled stays
beside the outcome of the next.
-/

namespace Durare.Memory

/-! ## Operations of the engine -/

namespace Operation

/-- An operation as the engine makes it: it inserts the rows of new runs, and writes a status with
the texts of its own. -/
def ByEngine : Operation → Prop
  | call (.insertWorkflowStatus status) => Eff.NewRun (.provider (.insertWorkflowStatus status))
  | call (.setWorkflowStatus id status output error) =>
    Eff.Engine (.provider (.setWorkflowStatus id status output error))
  | _ => True

/-- The operation imports nothing. -/
def Local : Operation → Prop
  | importWorkflow _ => False
  | _ => True

end Operation

/-- The status writes of the engine: an outcome, a cancellation, or back on the queue. -/
theorem writes_cases {id : String} {status : Status} {output : Option Value} {error : Option String}
    (h : Eff.Engine (.provider (.setWorkflowStatus id status output error))) :
    (status = .success ∧ output.isSome ∧ error = none) ∨
    (status = .error ∧ error.isSome ∧ output = none) ∨ status = .cancelled ∨
      status = .enqueued := by
  rcases h with hwrites | ⟨_, heq⟩
  · cases hwrites with
    | success => exact .inl ⟨rfl, rfl, rfl⟩
    | error => exact .inr (.inl ⟨rfl, rfl, rfl⟩)
    | cancelled => exact .inr (.inr (.inl rfl))
    | enqueued => exact .inr (.inr (.inr rfl))
  · cases heq
    exact .inr (.inr (.inl rfl))

theorem newRun_blank {status : WorkflowStatus}
    (h : Eff.NewRun (.provider (.insertWorkflowStatus status))) :
    status.status.isTerminal = false ∧ status.completedAtMs = none := by
  cases h with
  | insert => exact ⟨newRun_live, rfl⟩

/-! ## When a workflow ended -/

/-- The row is dated iff it is terminal. -/
def Dated (row : WorkflowStatus) : Prop := row.completedAtMs.isSome = row.status.isTerminal

/-- The operation keeps dates and statuses together: it puts no ended row on a queue, parks no live
one, and imports no finished workflow. -/
def Operation.KeepsDates : Operation → Inner → Prop
  | call (.setWorkflowStatus id .enqueued _ _), g | call (.enqueueExisting id _), g =>
    ∀ row, g.workflows.lookup id = some row → row.status.isTerminal = false
  | call (.bumpRecoveryAttempts id max), g => ∀ row, g.workflows.lookup id = some row →
      max < row.recoveryAttempts + 1 → row.status.isTerminal = true
  | importWorkflow workflows, _ => ∀ wf ∈ workflows,
      (statusOf ((colStr wf.workflowStatus "status").getD "")).isTerminal = false
  | _, _ => True

variable {c : ProviderCall} {row' : WorkflowStatus}

section

variable {X : TextCodec} {now : DateTime} {id : String} {g : Inner}

theorem Dated.bump {max : Int} {row : WorkflowStatus} (h : Dated row)
    (hcap : max < row.recoveryAttempts + 1 → row.status.isTerminal = true) :
    Dated (bumpRow now max row) := by
  unfold bumpRow
  dsimp only
  split
  · next hover =>
      -- A parked row had ended before, and keeps its date.
      exact h.trans (hcap hover)
  · exact h

theorem dated_touch (hc : (Operation.call c).ByEngine) (hkeeps : (Operation.call c).KeepsDates g)
    (h : Touch now id c (g.workflows.lookup id) (some row'))
    (hold : ∀ row, g.workflows.lookup id = some row → Dated row) : Dated row' := by
  generalize hx : g.workflows.lookup id = x at h hold
  cases h with
  | keep => exact hold row' rfl
  | create =>
    obtain ⟨hlive, hnone⟩ := newRun_blank hc
    rw [Dated, hlive, hnone]
    rfl
  | @write row =>
    rcases writes_cases hc with ⟨rfl, -, -⟩ | ⟨rfl, -, -⟩ | rfl | rfl
    · rfl
    · rfl
    · rfl
    · exact (hold row rfl).trans (hkeeps row hx)
  | cancel _ hlive =>
    rw [cancelRow, if_neg (by simp [hlive])]
    rfl
  | resume => rfl
  | @enqueue row => exact (hold row rfl).trans (hkeeps row hx)
  | @bump row => exact (hold row rfl).bump (hkeeps row hx)
  | @claim row _ henqueued =>
    refine (hold row rfl).trans ?_
    rw [henqueued]
    rfl
  | @promote row _ hdelayed =>
    refine (hold row rfl).trans ?_
    rw [hdelayed]
    rfl

/-- **A row says when its workflow ended iff it has ended**, in every run whose operations keep
dates and statuses together. -/
theorem completed_iff_terminal
    (hrun : Reaches X (fun op g => op.ByEngine ∧ op.KeepsDates g) {} g) :
    ∀ id row, g.workflows.lookup id = some row →
      (row.completedAtMs.isSome = true ↔ row.status.isTerminal = true) := by
  have hdated : ∀ id row, g.workflows.lookup id = some row → Dated row := by
    refine hrun.rows ?_
    rintro op now id g row' ⟨hengine, hkeeps⟩ htouches hold
    generalize hx : g.workflows.lookup id = x at htouches hold
    cases htouches with
    | keep => exact hold row' rfl
    | call h =>
      subst hx
      exact dated_touch hengine hkeeps h hold
    | fork => rfl
    | imported hwf => exact (hkeeps _ hwf).symm
    | @delay _ row hdelayed => exact hold row rfl
  intro id row hrow
  rw [show row.completedAtMs.isSome = row.status.isTerminal from hdated id row hrow]

end

/-- The row of `w`, started here with a timeout of one millisecond. -/
def begun : WorkflowStatus :=
  newRun ⟨["job"], [], "", ""⟩ 0 ⟨0⟩ "w" "job" .null { timeout := some ⟨1000000⟩ } none
    ⟨none, none, []⟩

/-- The store with `w` in it. -/
def justBegun : Inner := (insertWorkflowStatus begun {}).2

theorem reaches_justBegun {allowed : Operation → Inner → Prop}
    (h : allowed (.call (.insertWorkflowStatus begun)) {}) : Reaches noText allowed {} justBegun :=
  .single ⟨.call (.insertWorkflowStatus begun), ⟨0⟩, "", h, rfl⟩

/-- `w` comes to its end. -/
theorem completed_iff_terminal_ended : ∃ row,
    (setWorkflowStatus ⟨1⟩ "w" .success (some .null) none justBegun).2.workflows.lookup "w" =
      some row ∧ row.status = .success ∧ row.completedAtMs.isSome = true := by
  have hrun := (@reaches_justBegun (fun op g => op.ByEngine ∧ op.KeepsDates g)
    ⟨.insert, trivial⟩).tail ⟨.call (.setWorkflowStatus "w" .success (some .null) none), ⟨1⟩, "",
      ⟨.inl .success, trivial⟩, rfl⟩
  exact ⟨_, rfl, rfl, (completed_iff_terminal hrun "w" _ rfl).mpr rfl⟩

/-- `w` is recovered twice where once is allowed. -/
def parkedUndated : Inner :=
  (bumpRecoveryAttempts ⟨2⟩ "w" 1 (bumpRecoveryAttempts ⟨1⟩ "w" 1 justBegun).2).2

/-- A finished workflow, as another store exports it. -/
def exported : ExportedWorkflow where
  workflowStatus := [("workflow_uuid", .string "v"), ("status", .string "SUCCESS")]

/-- `w` is cancelled and resumed, runs to its end before it is put on the queue, and then is. -/
def requeuedDated : Inner :=
  (enqueueExisting ⟨4000000⟩ "w" INTERNAL_QUEUE
    (setWorkflowStatus ⟨3000000⟩ "w" .success (some .null) none
      (resumeWorkflow ⟨2000000⟩ "w" (cancelWorkflow ⟨1000000⟩ "w" justBegun).2).2).2).2

/-- **A parked row has no date, an imported one has none either, and one that is back on a queue has
one.** -/
theorem undated_rows :
    (Reaches noText (fun op _ => op.ByEngine) {} parkedUndated ∧
      (parkedUndated.workflows.lookup "w").map (fun row => (row.status, row.completedAtMs)) =
        some (.maxRecoveryAttemptsExceeded, none)) ∧
    (∃ g, Reaches noText (fun op _ => op.ByEngine) {} g ∧
      (g.workflows.lookup "v").map (fun row => (row.status, row.completedAtMs)) =
        some (.success, none)) ∧
    Reaches noText (fun op _ => op.ByEngine) {} requeuedDated ∧
      (requeuedDated.workflows.lookup "w").map (fun row => (row.status, row.completedAtMs)) =
        some (.enqueued, some 3) := by
  have hbegun : Reaches noText (fun op _ => op.ByEngine) {} justBegun := reaches_justBegun .insert
  have hstep {g : Inner} (c : ProviderCall) (hc : (Operation.call c).ByEngine) (now : DateTime) :
      Step noText (fun op _ => op.ByEngine) g (call c now "" g).2 := ⟨.call c, now, "", hc, rfl⟩
  refine ⟨⟨?_, rfl⟩, ⟨(importWorkflow noText ⟨0⟩ [exported] {}).2, ?_, rfl⟩, ?_, rfl⟩
  · exact (hbegun.tail (hstep (.bumpRecoveryAttempts "w" 1) trivial ⟨1⟩)).tail
      (hstep (.bumpRecoveryAttempts "w" 1) trivial ⟨2⟩)
  · exact .single ⟨.importWorkflow [exported], ⟨0⟩, "", trivial, rfl⟩
  · exact (((hbegun.tail (hstep (.cancelWorkflow "w") trivial ⟨1000000⟩)).tail
      (hstep (.resumeWorkflow "w") trivial ⟨2000000⟩)).tail
      (hstep (.setWorkflowStatus "w" .success (some .null) none) (.inl .success) ⟨3000000⟩)).tail
      (hstep (.enqueueExisting "w" INTERNAL_QUEUE) trivial ⟨4000000⟩)

/-! ## How a workflow ended -/

/-- The row has the outcome its status says, and no other. -/
structure OutcomeAgrees (row : WorkflowStatus) : Prop where
  success : row.status = .success → row.output.isSome ∧ row.error = none
  error : row.status = .error → row.error.isSome ∧ row.output = none

/-- Where the operation records an outcome, it finds no other: a result no error, and an error no
result.  On a cancelled row nothing is recorded. -/
def Operation.FindsNoOther : Operation → Inner → Prop
  | call (.setWorkflowStatus id .success _ _), g => ∀ row, g.workflows.lookup id = some row →
      row.status ≠ .cancelled → row.error = none
  | call (.setWorkflowStatus id .error _ _), g => ∀ row, g.workflows.lookup id = some row →
      row.status ≠ .cancelled → row.output = none
  | _, _ => True

variable {row : WorkflowStatus}

section

variable {X : TextCodec} {now : DateTime} {id uuid : String} {g : Inner}

theorem outcomeAgrees_of_ne (hsuccess : row.status ≠ .success) (herror : row.status ≠ .error) :
    OutcomeAgrees row :=
  ⟨fun h => absurd h hsuccess, fun h => absurd h herror⟩

theorem outcomeAgrees_live (h : row.status.isTerminal = false) : OutcomeAgrees row := by
  refine outcomeAgrees_of_ne ?_ ?_
  · intro heq
    rw [heq] at h
    cases h
  · intro heq
    rw [heq] at h
    cases h

theorem outcomeAgrees_stopped
    (h : row.status = .cancelled ∨ row.status = .maxRecoveryAttemptsExceeded) :
    OutcomeAgrees row := by
  refine outcomeAgrees_of_ne ?_ ?_
  · rcases h with h | h <;> simp [h]
  · rcases h with h | h <;> simp [h]

theorem outcomeAgrees_touch (hc : (Operation.call c).ByEngine)
    (hfinds : (Operation.call c).FindsNoOther g)
    (h : Touch now id c (g.workflows.lookup id) (some row'))
    (hold : ∀ row, g.workflows.lookup id = some row → OutcomeAgrees row) : OutcomeAgrees row' := by
  generalize hx : g.workflows.lookup id = x at h hold
  cases h with
  | keep => exact hold row' rfl
  | create => exact outcomeAgrees_live (newRun_blank hc).1
  | @write row _ _ _ hguard =>
    rcases writes_cases hc with ⟨rfl, hout, rfl⟩ | ⟨rfl, herr, rfl⟩ | rfl | rfl
    · refine ⟨fun _ => ⟨?_, ?_⟩, fun h => by cases h⟩
      · exact Option.isSome_or.trans (by rw [hout]; rfl)
      · exact hfinds row hx fun hcancelled => hguard ⟨.inl rfl, hcancelled⟩
    · refine ⟨(fun h => by cases h), fun _ => ⟨?_, ?_⟩⟩
      · exact Option.isSome_or.trans (by rw [herr]; rfl)
      · exact hfinds row hx fun hcancelled => hguard ⟨.inr rfl, hcancelled⟩
    · exact outcomeAgrees_stopped (.inl rfl)
    · exact outcomeAgrees_live rfl
  | cancel _ hlive =>
    rw [cancelRow, if_neg (by simp [hlive])]
    exact outcomeAgrees_stopped (.inl rfl)
  | resume => exact outcomeAgrees_live rfl
  | enqueue => exact outcomeAgrees_live rfl
  | @bump row max =>
    unfold bumpRow
    dsimp only
    split
    · exact outcomeAgrees_stopped (.inr rfl)
    · exact ⟨(hold row rfl).success, (hold row rfl).error⟩
  | claim => exact outcomeAgrees_live rfl
  | promote => exact outcomeAgrees_live rfl

theorem outcomeAgrees_touches {op : Operation} (hop : op.ByEngine ∧ op.Local ∧ op.FindsNoOther g)
    (h : Touches X now id op (g.workflows.lookup id) (some row'))
    (hold : ∀ row, g.workflows.lookup id = some row → OutcomeAgrees row) : OutcomeAgrees row' := by
  obtain ⟨hengine, hlocal, hfinds⟩ := hop
  generalize hx : g.workflows.lookup id = x at h hold
  cases h with
  | keep => exact hold row' rfl
  | call h =>
    subst hx
    exact outcomeAgrees_touch hengine hfinds h hold
  | fork => exact outcomeAgrees_live rfl
  | imported => exact hlocal.elim
  | @delay _ row hdelayed => exact ⟨(hold row rfl).success, (hold row rfl).error⟩

/-- A recorded outcome that leaves a row with one only found no other. -/
theorem findsNoOther_of_agrees {op : Operation} (hop : op.ByEngine)
    (h : ∀ id row, (op.run X now uuid g).workflows.lookup id = some row → OutcomeAgrees row) :
    op.FindsNoOther g := by
  unfold Operation.FindsNoOther
  split
  · next id output error =>
      intro row hrow hlive
      have hwrite : (setWorkflowStatus now id .success output error g).2.workflows.lookup id =
          some (applyStatus now .success output error row) := by
        simp [setWorkflowStatus, hrow, hlive]
      obtain ⟨-, -, rfl⟩ | ⟨hne, -⟩ | hne | hne := writes_cases hop
      · exact ((h id _ hwrite).success rfl).2
      · cases hne
      · cases hne
      · cases hne
  · next id output error =>
      intro row hrow hlive
      have hwrite : (setWorkflowStatus now id .error output error g).2.workflows.lookup id =
          some (applyStatus now .error output error row) := by
        simp [setWorkflowStatus, hrow, hlive]
      obtain ⟨hne, -⟩ | ⟨-, -, rfl⟩ | hne | hne := writes_cases hop
      · cases hne
      · exact ((h id _ hwrite).error rfl).2
      · cases hne
      · cases hne
  · trivial

/-- **A row with an outcome has that outcome and no other**, in every run in which outcomes are
recorded where no other is left over; and from there on it takes such an operation to keep it so. -/
theorem outcome_agrees
    (hrun : Reaches X (fun op g => op.ByEngine ∧ op.Local ∧ op.FindsNoOther g) {} g) :
    (∀ id row, g.workflows.lookup id = some row →
      (row.status = .success → row.output.isSome ∧ row.error = none) ∧
      (row.status = .error → row.error.isSome ∧ row.output = none)) ∧
    ∀ (op : Operation) now uuid, op.ByEngine → op.Local →
      ((∀ id row, (op.run X now uuid g).workflows.lookup id = some row → OutcomeAgrees row) ↔
        op.FindsNoOther g) := by
  have hagrees : ∀ {g}, Reaches X (fun op g => op.ByEngine ∧ op.Local ∧ op.FindsNoOther g) {} g →
      ∀ id row, g.workflows.lookup id = some row → OutcomeAgrees row := fun h =>
    h.rows fun op now id g row' hop => outcomeAgrees_touches hop
  refine ⟨fun id row hrow => ?_, fun op now uuid hengine hlocal => ⟨?_, fun hfinds => ?_⟩⟩
  · exact ⟨(hagrees hrun id row hrow).success, (hagrees hrun id row hrow).error⟩
  · exact findsNoOther_of_agrees hengine
  · exact hagrees (hrun.tail ⟨op, now, uuid, ⟨hengine, hlocal, hfinds⟩, rfl⟩)

end

theorem outcome_agrees_begun : ∃ row,
    (setWorkflowStatus ⟨1⟩ "w" .success (some .null) none justBegun).2.workflows.lookup "w" =
      some row ∧ row.status = .success ∧ row.output.isSome ∧ row.error = none := by
  have hfinds : (Operation.call (.setWorkflowStatus "w" .success (some .null) none)).FindsNoOther
      justBegun := by
    rintro row ⟨rfl⟩ -
    rfl
  have hrun := (@reaches_justBegun (fun op g => op.ByEngine ∧ op.Local ∧ op.FindsNoOther g)
    ⟨.insert, trivial, trivial⟩).tail
    ⟨.call (.setWorkflowStatus "w" .success (some .null) none), ⟨1⟩, "",
      ⟨.inl .success, trivial, hfinds⟩, rfl⟩
  exact ⟨_, rfl, rfl, ((outcome_agrees hrun).1 "w" _ rfl).1 rfl⟩

/-- What the dispatcher of the internal queue asks for. -/
def internalRequest : DequeueRequest := ⟨INTERNAL_QUEUE, "", "", none, 1, none, none, none⟩

/-- `w` overruns its deadline and is resumed. -/
def resumedLate : Inner :=
  (enqueueExisting ⟨4000000⟩ "w" INTERNAL_QUEUE (resumeWorkflow ⟨3000000⟩ "w"
    (setWorkflowStatus ⟨2000000⟩ "w" .cancelled none (some "deadline exceeded") justBegun).2).2).2

/-- **A workflow that succeeded has an error**: it overran its deadline, was resumed, claimed again,
and this time came to its end. -/
theorem success_with_error : ∃ g row, Reaches noText (fun op _ => op.ByEngine ∧ op.Local) {} g ∧
    g.workflows.lookup "w" = some row ∧ row.status = .success ∧
      row.error = some "deadline exceeded" := by
  have hstep {g : Inner} (c : ProviderCall) (hc : (Operation.call c).ByEngine ∧
      (Operation.call c).Local) (now : DateTime) :
      Step noText (fun op _ => op.ByEngine ∧ op.Local) g (call c now "" g).2 :=
    ⟨.call c, now, "", hc, rfl⟩
  have hresumed : Reaches noText (fun op _ => op.ByEngine ∧ op.Local) {} resumedLate :=
    (((reaches_justBegun ⟨.insert, trivial⟩).tail (hstep (.setWorkflowStatus "w" .cancelled none
      (some "deadline exceeded")) ⟨.inr ⟨_, rfl⟩, trivial⟩ ⟨2000000⟩)).tail
      (hstep (.resumeWorkflow "w") ⟨trivial, trivial⟩ ⟨3000000⟩)).tail
      (hstep (.enqueueExisting "w" INTERNAL_QUEUE) ⟨trivial, trivial⟩ ⟨4000000⟩)
  have hsorted : [((0 : Int), (0 : Int), "w")].Pairwise fun a b => claimLe a b = true := by decide
  have hids : claimIds ⟨5000000⟩ internalRequest resumedLate = ["w"] :=
    claimIds_of_pairwise rfl hsorted
  have hclaimed := hresumed.tail (hstep (.dequeueWorkflows internalRequest) ⟨trivial, trivial⟩
    ⟨5000000⟩)
  rw [call, dequeueWorkflows, hids] at hclaimed
  have hrun := hclaimed.tail (hstep (.setWorkflowStatus "w" .success (some .null) none)
    ⟨.inl .success, trivial⟩ ⟨5500000⟩)
  exact ⟨_, _, hrun, rfl, rfl, rfl⟩

end Durare.Memory
