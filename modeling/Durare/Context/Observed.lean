import Durare.Context.FailedSteps
import Durare.Context.Racing
import Durare.Context.Waiting

/-!
# Context/Observed — what racing executions observe, and what is recorded

Several executions of one workflow come to the same operation, and the first to record its outcome
wins.  The others are told the recorded outcome — but not all of them look at it.  A step that
failed returns **its own error** even if another failure is recorded; a wait that timed out returns
`None` even if a value is; and a wait that is told a null wraps it.

* `Agreed` — what the calls of the operation have to find so that none of this makes a difference.
* `spec_op` — an operation whose calls agree returns what its row says.
* `observed_recorded` — so every execution observes the recorded outcome, in every interleaving.
-/

namespace Durare.Observed

open List Option

open Verb Memory

/-! ## Outcomes and rows -/

/-- The operations that return a recorded outcome of user code or of a wait. -/
def Observable : Op → Prop
  | @Op.step _ _ _ => True
  | @Op.stepWith _ _ _ => True
  | @Op.select _ _ branches => branches ≠ 0
  | o => o.Waits

/-- What user code returns can be written. -/
def Writable : Op → Prop
  | @Op.step T _ _ => ∀ v : T, ∃ json, Serde.toValue v = .ok json
  | @Op.stepWith T _ _ => ∀ v : T, ∃ json, Serde.toValue v = .ok json
  | @Op.select T _ _ => ∀ v : Nat × T, ∃ json, Serde.toValue v = .ok json
  | _ => True

/-- A row the operation records: only a step records failures. -/
def Own (o : Op) (row : StepRow) : Prop := row.name = o.name ∧ (¬o.Steps → row.error = none)

variable {row : StepRow}

theorem stepRowOutcome_output (h : row.error = none) :
    stepRowOutcome row = .output (row.output.getD .null) := by
  simp only [stepRowOutcome, h]

variable {error : Option String} {id : String} {r : Except Error StepOutcome} {started : Option Int}
  {timeout : Duration} {w' : World Inner}

section

variable [Serde DateTime]

/-- A row that says when a wait is over. -/
def Timer (row : StepRow) : Prop :=
  row.name = "DBOS.sleep" ∧ ∃ d, outcomeValue DateTime (stepRowOutcome row) = .ok d

/-- The sequence numbers of the operation at `n` hold nothing but its own rows. -/
structure Slot (id : String) (n : Int) (o : Op) (g : Inner) : Prop where
  row : ∀ row, log g id n = some row → Own o row
  timer : o.Waits → ∀ row, log g id (n + 1) = some row → Timer row

/-- A recorded row stays, and so does the slot. -/
structure Grows (id : String) (n : Int) (o : Op) (w w' : World Inner) : Prop where
  stay : ∀ row, log w.store id n = some row → log w'.store id n = some row
  slot : Slot id n o w.store → Slot id n o w'.store

/-- What a call of the operation at `n` has to find: the workflow is not cancelled; a failure finds
no other failure; the null of a wait finds a null, and any other value another value; and no null is
delivered. -/
def Agreed (id : String) (n : Int) (o : Op) (g : Inner) : (e : Eff) → Answer e → Prop
  | .provider (.getWorkflowStatus id'), _ =>
    (g.workflows.lookup id').map WorkflowStatus.status ≠ some .cancelled
  | .provider (.recordStepResult _ m _ value error _), _ => m = n → ∀ row, log g id n = some row →
      match error with
      | some text => row.error = none ∨ row.error = some text
      | none => o.Waits → (row.output.getD .null = .null ↔ value = .null)
  | e, r => ¬e.DeliversNull r

/-- The result is what the row says: the same value, or an error with the same message. -/
def Observes (id : String) (n : Int) (o : Op) (r : Except Error o.Result)
    (w : World Inner) : Prop :=
  ∃ row, log w.store id n = some row ∧
    r.mapError Error.message = (o.recorded row).mapError Error.message

/-- Calls that agree; rows stay. -/
def agreeing (X : TextCodec) (id : String) (n : Int) (o : Op) :
    Proc.Judge Eff Answer (World Inner) where
  handle e w r w' := (provider X).handle e w r w' ∧ Agreed id n o w.store e r
  rely := Grows id n o
  guar _ w _ w' := Grows id n o w w'

variable {X : TextCodec} {ctx : DurableContext} {n m : Int} {o : Op} {s : CtxState}
  {w : World Inner} {α β T : Type} [Serde T]

theorem Grows.refl (w : World Inner) : Grows id n o w w := ⟨fun _ h => h, fun h => h⟩

theorem Grows.trans {a b c : World Inner} (h : Grows id n o a b) (h' : Grows id n o b c) :
    Grows id n o a c :=
  ⟨fun row hrow => h'.stay row (h.stay row hrow), fun hslot => h'.slot (h.slot hslot)⟩

omit [Serde DateTime] in
/-- What is said of the rows at `k` holds after an insertion if it holds of the new row. -/
theorem rows_insertNew {g g' : Inner} {q : StepRow → Prop} {k : Int}
    (hsteps : g'.steps = g.steps.insertNew (id, m) row) (hold : ∀ r, log g id k = some r → q r)
    (hrow : m = k → q row) (r : StepRow) (h : log g' id k = some r) : q r := by
  rw [log, hsteps, AList.lookup_insertNew] at h
  split at h
  · next hk =>
      cases hk
      cases hg : g.steps.lookup (id, m) with
      | none =>
        rw [hg] at h
        cases h
        exact hrow rfl
      | some r =>
        rw [hg] at h
        cases h
        exact hold _ hg
  · exact hold r h

/-- A row of the operation is recorded in its slot, or any row elsewhere. -/
theorem Grows.of_insertNew (hsteps : w'.store.steps = w.store.steps.insertNew (id, m) row)
    (hn : m = n → Own o row) (hm : m = n + 1 → o.Waits → Timer row) : Grows id n o w w' where
  stay r hr := by
    rw [log, hsteps]
    exact AList.lookup_insertNew_of_some hr _ _
  slot hslot :=
    ⟨rows_insertNew hsteps hslot.row hn,
      fun hwaits => rows_insertNew hsteps (hslot.timer hwaits) fun h => hm h hwaits⟩

/-! ## Calls -/

omit [Serde DateTime] in
/-- The row that is there after a record: an earlier one, or the new one. -/
theorem handle_record {name : String} {value : Value}
    (h : (provider X).handle (.provider (.recordStepResult id m name value error started)) w r w') :
    let new := resultRow w.clock name value error started
    w'.store.steps = w.store.steps.insertNew (id, m) new ∧ ∃ row, log w'.store id m = some row ∧
      r = .ok (stepRowOutcome row) ∧ (log w.store id m = some row ∨ row = new) := by
  obtain ⟨rfl, rfl⟩ := handle_recordStepResult h
  refine ⟨rfl, _, AList.lookup_insertNew_self _ _ _, rfl, ?_⟩
  cases hold : w.store.steps.lookup (id, m) with
  | some row => exact .inl hold
  | none => exact .inr rfl

/-- A lookup finds the row, or nothing, and then the work begins. -/
theorem spec_lookup {f : Option T → Verb α}
    {Q : Except Error α → CtxState → World Inner → Prop} (hslot : Slot ctx.workflowId n o w.store)
    (hfound : ∀ w₁ row, log w₁.store ctx.workflowId n = some row →
      after (agreeing X ctx.workflowId n o) f Q
        ((outcomeValue T (stepRowOutcome row)).map some) s w₁)
    (hnone : ∀ w₁, Slot ctx.workflowId n o w₁.store →
      wp (agreeing X ctx.workflowId n o) (f none) Q s w₁) :
    wp (agreeing X ctx.workflowId n o) (replayOrGuard ctx T n o.name >>= f) Q s w := by
  refine wp_replayOrGuard fun w₁ hw₁ r w₂ hr => ?_
  obtain ⟨rfl, rfl⟩ := handle_getStepResult hr.1
  refine ⟨.refl w₂, ?_⟩
  have hslot₂ := hw₁.slot hslot
  cases hlog : log w₂.store ctx.workflowId n with
  | some row =>
    dsimp only [map_some]
    rw [if_pos (hslot₂.row row hlog).1]
    exact hfound w₂ row hlog
  | none =>
    refine wp_unlessCancelled fun w₃ hw₃ r w₄ hr => ?_
    obtain ⟨rfl, rfl⟩ := handle_getWorkflowStatus hr.1
    refine ⟨.refl w₄, ?_⟩
    dsimp only
    rw [if_neg hr.2]
    exact hnone w₄ (hw₃.slot hslot₂)

/-- **A record at `n` is told the row that is there afterwards**, and agrees with it. -/
theorem call_record {value : Value} (hslot : Slot ctx.workflowId n o w.store)
    (hsteps : ¬o.Steps → error = none)
    (hr : (agreeing X ctx.workflowId n o).handle
      (.provider (.recordStepResult ctx.workflowId n o.name value error started)) w r w') :
    Grows ctx.workflowId n o w w' ∧ ∃ row, log w'.store ctx.workflowId n = some row ∧ Own o row ∧
      r = .ok (stepRowOutcome row) ∧
      (∀ text, error = some text → row.error = none ∨ row.error = some text) ∧
      (error = none → o.Waits → (row.output.getD .null = .null ↔ value = .null)) := by
  obtain ⟨hsteps', row, hrow, rfl, hcases⟩ := handle_record hr.1
  have hgrows : Grows ctx.workflowId n o w w' := by
    refine .of_insertNew hsteps' (fun _ => ⟨rfl, hsteps⟩) fun h => ?_
    omega
  refine ⟨hgrows, row, hrow, (hgrows.slot hslot).row row hrow, rfl, ?_⟩
  rcases hcases with hold | rfl
  · have hagreed := hr.2 rfl row hold
    refine ⟨?_, ?_⟩
    · rintro text rfl
      exact hagreed
    · rintro rfl hwaits
      exact hagreed hwaits
  · refine ⟨fun text htext => .inr htext, ?_⟩
    rintro rfl -
    exact Iff.rfl

/-! ## Steps and selects -/

/-- What a row says, as a result of the operation. -/
theorem Observes.of_eq {r : Except Error o.Result} (hrow : log w.store id n = some row)
    (h : r = o.recorded row) : Observes id n o r w :=
  ⟨row, hrow, by rw [h]⟩

omit [Serde DateTime] [Serde T] in
theorem after_found {J : Proc.Judge Eff Answer (World Inner)} {f : Option T → Verb T}
    {Q : Except Error T → CtxState → World Inner → Prop} (hf : ∀ v, f (some v) = pure v)
    {r : Except Error T} (h : Q r s w) : after J f Q (r.map some) s w := by
  cases r with
  | error e => exact h
  | ok v =>
    rw [Except.map, after_ok, hf v]
    exact h

section

variable {Q : Except Error T → CtxState → World Inner → Prop}

theorem spec_checkpoint (hslot : Slot ctx.workflowId n o w.store) {v : T}
    (hv : ∃ json, Serde.toValue v = .ok json)
    (hQ : ∀ s w₁ row, log w₁.store ctx.workflowId n = some row →
      Q (outcomeValue T (stepRowOutcome row)) s w₁) :
    wp (agreeing X ctx.workflowId n o) (checkpoint ctx T n o.name v started) Q s w := by
  obtain ⟨json, hjson⟩ := hv
  refine wp_toValue hjson (wp_ask fun w₁ hw₁ r w₂ hr => ?_)
  obtain ⟨hgrows, row, hrow, -, rfl, -, -⟩ := call_record (hw₁.slot hslot) (fun _ => rfl) hr
  exact ⟨hgrows, hQ _ w₂ row hrow⟩

/-- A failure is returned live, and with the message the row says. -/
theorem spec_recordFailure (ho : o.Steps) (hslot : Slot ctx.workflowId n o w.store) {e : Error}
    (hQ : ∀ s w₁ row r, log w₁.store ctx.workflowId n = some row → r.mapError Error.message =
      (outcomeValue T (stepRowOutcome row)).mapError Error.message → Q r s w₁) :
    wp (agreeing X ctx.workflowId n o) (recordFailure (provider X) ctx T n o.name e started) Q s
      w := by
  refine wp_ask fun w₁ hw₁ r w₂ hr => ?_
  obtain ⟨hgrows, row, hrow, -, rfl, hsame, -⟩ :=
    call_record (hw₁.slot hslot) (fun h => absurd ho h) hr
  refine ⟨hgrows, ?_⟩
  rw [after_ok]
  rcases hsame _ rfl with herror | herror
  · have hout := stepRowOutcome_output herror
    rw [hout]
    refine hQ _ w₂ row _ hrow ?_
    rw [hout]
    rfl
  · have hout : stepRowOutcome row = .failure e.message none := by
      simp only [stepRowOutcome, herror]
      rfl
    rw [hout]
    refine hQ _ w₂ row _ hrow ?_
    rw [hout]
    rfl

end

omit [Serde T] in
theorem spec_runStepCatching {seq : Int} {name : String} (hslot : Slot ctx.workflowId n o w.store) :
    wp (agreeing X ctx.workflowId n o) (runStepCatching T seq name)
      (fun r _ w' => Slot ctx.workflowId n o w'.store ∧ ∃ a, r = .ok a) s w := by
  refine wp_perform fun w₁ hw₁ r w₂ hr => ?_
  obtain rfl : w₂ = w₁ := hr.1
  refine ⟨.refl w₂, ?_⟩
  cases r with
  | returned a => exact ⟨hw₁.slot hslot, a, rfl⟩
  | panicked payload => exact ⟨hw₁.slot hslot, _, rfl⟩

omit [Serde T] in
theorem spec_runWithRetries {seq : Int} {opts : StepOptions}
    (hslot : Slot ctx.workflowId n o w.store) :
    wp (agreeing X ctx.workflowId n o) (runWithRetries T seq opts)
      (fun r _ w' => Slot ctx.workflowId n o w'.store ∧ ∃ a, r = .ok a) s w := by
  refine wp_loop (fun _ _ w => Slot ctx.workflowId n o w.store) hslot fun t s w hslot => ?_
  refine wp_bind (wp_mono ?_ (spec_runStepCatching hslot))
  rintro _ s' w' ⟨hslot', a, rfl⟩
  cases a with
  | ok v => exact ⟨hslot', _, rfl⟩
  | error e =>
    rw [after_ok]
    dsimp only
    split
    · exact ⟨hslot', _, rfl⟩
    · refine wp_perform fun w₁ hw₁ r w₂ hr => ?_
      obtain rfl : w₂ = w₁ := hr.1
      exact ⟨.refl w₂, hw₁.slot hslot'⟩

theorem spec_checkpointed (ho : o.Steps) (hwritable : ∀ v : T, ∃ json, Serde.toValue v = .ok json)
    {attempt : Verb (Except Error T)}
    (hattempt : ∀ s w, Slot ctx.workflowId n o w.store → wp (agreeing X ctx.workflowId n o) attempt
      (fun r _ w' => Slot ctx.workflowId n o w'.store ∧ ∃ a, r = .ok a) s w)
    (hslot : Slot ctx.workflowId n o w.store) :
    wp (agreeing X ctx.workflowId n o) (checkpointed (provider X) ctx T n o.name attempt)
      (fun r _ w' => ∃ row, log w'.store ctx.workflowId n = some row ∧ r.mapError Error.message =
        (outcomeValue T (stepRowOutcome row)).mapError Error.message) s w := by
  refine spec_lookup hslot (fun w₁ row hrow => ?_) fun w₁ hslot₁ => ?_
  · exact after_found (fun _ => rfl) ⟨row, hrow, rfl⟩
  · refine wp_perform fun w₂ hw₂ started w₃ hr => ?_
    obtain rfl : w₃ = w₂ := hr.1.2
    refine ⟨.refl w₃, wp_bind (wp_mono ?_ (hattempt _ w₃ (hw₂.slot hslot₁)))⟩
    rintro _ s' w' ⟨hslot', a, rfl⟩
    cases a with
    | ok v =>
      rw [after_ok]
      exact spec_checkpoint hslot' (hwritable v) fun _ _ row hrow => ⟨row, hrow, rfl⟩
    | error e =>
      rw [after_ok]
      exact spec_recordFailure ho hslot' fun _ _ row r hrow hr => ⟨row, hrow, hr⟩

theorem spec_select {branches : Nat} (hbranches : branches ≠ 0)
    (hwritable : ∀ v : Nat × T, ∃ json, Serde.toValue v = .ok json) (hs : s.seq = n)
    (hslot : Slot ctx.workflowId n (.select T branches) w.store) :
    wp (agreeing X ctx.workflowId n (.select T branches)) (select ctx T branches)
      (fun r _ => Observes ctx.workflowId n (.select T branches) r) s w := by
  subst hs
  unfold select
  rw [if_neg hbranches]
  refine wp_nextSeq (spec_lookup (o := .select T branches) hslot (fun w₁ row hrow => ?_)
    fun w₁ hslot₁ => ?_)
  · exact after_found (fun _ => rfl) (.of_eq hrow rfl)
  · refine wp_perform fun w₂ hw₂ started w₃ hr => ?_
    obtain rfl : w₃ = w₂ := hr.1.2
    refine ⟨.refl w₃, wp_perform fun w₄ hw₄ winner w₅ hr => ?_⟩
    obtain rfl : w₅ = w₄ := hr.1.2
    refine ⟨.refl w₅, ?_⟩
    exact spec_checkpoint (o := .select T branches) (hw₄.slot (hw₂.slot hslot₁)) (hwritable winner)
      fun _ _ row hrow => .of_eq hrow rfl

/-! ## Waits -/

section

variable [LawfulSerde DateTime] {deadline : Option DateTime}

/-- The deadline of a wait is read or recorded, and always found. -/
theorem spec_deadlineOf (ho : o.Waits) (hslot : Slot ctx.workflowId n o w.store) :
    wp (agreeing X ctx.workflowId n o) (deadlineOf ctx (n + 1) timeout deadline)
      (fun r _ w' => Slot ctx.workflowId n o w'.store ∧ ∃ d, r = .ok d) s w := by
  cases deadline with
  | some d => exact ⟨hslot, d, rfl⟩
  | none =>
    refine wp_ask fun w₁ hw₁ r w₂ hr => ?_
    obtain ⟨rfl, rfl⟩ := handle_getStepResult hr.1
    refine ⟨.refl w₂, ?_⟩
    have hslot₂ := hw₁.slot hslot
    cases hlog : log w₂.store ctx.workflowId (n + 1) with
    | some row =>
      obtain ⟨hname, d, hd⟩ := hslot₂.timer ho row hlog
      rw [map_some, after_ok]
      dsimp only
      rw [if_neg (not_not_intro hname)]
      exact ⟨hslot₂, d, hd⟩
    | none =>
      rw [map_none, after_ok]
      refine wp_perform fun w₃ hw₃ now w₄ hr => ?_
      obtain rfl : w₄ = w₃ := hr.1.2
      refine ⟨.refl w₄, ?_⟩
      obtain ⟨json, hjson, hread⟩ := LawfulSerde.roundTrip (now.addStd timeout)
      refine wp_toValue hjson (wp_ask fun w₅ hw₅ r w₆ hr => ?_)
      obtain ⟨hsteps, row, hrow, rfl, -⟩ := handle_record hr.1
      have htimer : Timer (resultRow w₅.clock "DBOS.sleep" json none none) := by
        refine ⟨rfl, now.addStd timeout, ?_⟩
        simp only [stepRowOutcome, resultRow, outcomeValue, StepOutcome.intoValueResult,
          isSome_none, getD_some, Bool.false_eq_true, if_false, hread, Except.mapError]
      have hgrows : Grows ctx.workflowId n o w₅ w₆ := by
        refine .of_insertNew hsteps (fun h => ?_) fun _ _ => htimer
        omega
      have hslot₆ := hgrows.slot (hw₅.slot (hw₃.slot hslot₂))
      obtain ⟨-, d, hd⟩ := hslot₆.timer ho row hrow
      exact ⟨hgrows, hslot₆, d, hd⟩

/-- One round of a wait, for its loop. -/
def Round (id : String) (n : Int) (o : Op) {T : Type} [Serde T]
    (r : Except Error (Option DateTime ⊕ Option T)) (w : World Inner) : Prop :=
  match r with
  | .ok (.inl _) => Slot id n o w.store
  | .ok (.inr v) => ∃ row, log w.store id n = some row ∧
      .ok v = outcomeValue (Option T) (stepRowOutcome row)
  | .error e => ∃ row, log w.store id n = some row ∧
      .error e = outcomeValue (Option T) (stepRowOutcome row)

theorem spec_waitOrTimeOut (ho : o.Waits) (hsteps : ¬o.Steps) {wait : ChangeWait}
    (hslot : Slot ctx.workflowId n o w.store) :
    wp (agreeing X ctx.workflowId n o)
      (waitOrTimeOut (provider X) ctx T n (n + 1) o.name timeout wait deadline)
      (fun r _ => Round ctx.workflowId n o r) s w := by
  refine wp_waitOrTimeOut (fun _ w => Slot ctx.workflowId n o w.store)
    (wp_mono ?_ (spec_deadlineOf ho hslot)) ?_ ?_ ?_
  · rintro _ s' w' ⟨hslot', d, rfl⟩
    exact hslot'
  · intro _ w w₁ now w₂ hslot hw₁ hr
    obtain rfl : w₂ = w₁ := hr.1.2
    exact ⟨.refl w₂, hw₁.slot hslot⟩
  · intro _ w w₁ r w₂ hslot hw₁ hr
    obtain ⟨hgrows, row, hrow, hown, rfl, -, hnull⟩ :=
      call_record (hw₁.slot hslot) (fun _ => rfl) hr
    refine ⟨hgrows, row, hrow, ?_⟩
    rw [stepRowOutcome_output (hown.2 hsteps), (hnull rfl ho).mpr rfl]
    rfl
  · intro _ w w₁ d within r w₂ hslot hw₁ hr
    obtain rfl : w₂ = w₁ := hr.1
    exact ⟨.refl w₂, hw₁.slot hslot⟩

omit [LawfulSerde DateTime] in
theorem spec_found {v : Value} (hrow : log w.store ctx.workflowId n = some row)
    (hout : stepRowOutcome row = .output v) (hnull : v ≠ .null) :
    wp (agreeing X ctx.workflowId n o)
      (Verb.ofExcept (outcomeValue T (.output v)) >>= fun a => pure (.inr (some a)))
      (fun r _ => Round ctx.workflowId n o r) s w := by
  have hread : (outcomeValue T (.output v)).map some =
      outcomeValue (Option T) (stepRowOutcome row) := by rw [hout, read_wrapped_iff.mpr hnull]
  refine wp_bind ?_
  rw [wp_ofExcept]
  cases hv : outcomeValue T (.output v) with
  | error e =>
    rw [hv] at hread
    exact ⟨row, hrow, hread⟩
  | ok a =>
    rw [hv] at hread
    exact ⟨row, hrow, hread⟩

omit [LawfulSerde DateTime] in
theorem spec_wait {f : Option (Option T) → Verb (Option T)} (hf : ∀ v, f (some v) = pure v)
    {body : Option DateTime → Verb (Option DateTime ⊕ Option T)} (hloop : f none = loop body none)
    (hbody : ∀ d s w, Slot ctx.workflowId n o w.store → wp (agreeing X ctx.workflowId n o) (body d)
      (fun r _ => Round ctx.workflowId n o r) s w) (hslot : Slot ctx.workflowId n o w.store) :
    wp (agreeing X ctx.workflowId n o) (replayOrGuard ctx (Option T) n o.name >>= f)
      (fun r _ w' => ∃ row, log w'.store ctx.workflowId n = some row ∧
        r = outcomeValue (Option T) (stepRowOutcome row)) s w := by
  refine spec_lookup hslot (fun w₁ row hrow => after_found hf ⟨row, hrow, rfl⟩) fun w₁ hslot₁ => ?_
  rw [hloop]
  refine wp_loop (fun _ _ w => Slot ctx.workflowId n o w.store) hslot₁ fun d s w hslot =>
    wp_mono ?_ (hbody d s w hslot)
  rintro (e | d | v) s' w' h'
  · exact h'
  · exact h'
  · exact h'

theorem spec_recv {topic : String} (hs : s.seq = n)
    (hslot : Slot ctx.workflowId n (.recv T topic timeout) w.store) :
    wp (agreeing X ctx.workflowId n (.recv T topic timeout)) (recv (provider X) ctx T topic timeout)
      (fun r _ => Observes ctx.workflowId n (.recv T topic timeout) r) s w := by
  subst hs
  refine wp_nextSeq (wp_nextSeq (wp_mono (fun _ _ _ ⟨row, hrow, hr⟩ => .of_eq hrow hr)
    (spec_wait (o := .recv T topic timeout) (fun _ => rfl) rfl (fun d s' w hslot => ?_) hslot)))
  refine wp_ask fun w₁ hw₁ r w₂ hr => ?_
  have hslot₁ := hw₁.slot hslot
  rcases handle_consumeNotification hr.1 with ⟨-, rfl, rfl⟩ | ⟨msg, i, -, hw₂, rfl⟩
  · exact ⟨.refl w₂, spec_waitOrTimeOut (o := .recv T topic timeout) trivial id hslot₁⟩
  · have hsteps : w₂.store.steps = w₁.store.steps.insertNew (ctx.workflowId, s.seq)
        { name := "DBOS.recv", output := some msg.message } := by rw [hw₂]
    have hgrows : Grows ctx.workflowId s.seq (.recv T topic timeout) w₁ w₂ := by
      refine .of_insertNew hsteps (fun _ => ⟨rfl, fun _ => rfl⟩) fun h => ?_
      omega
    have hrow : log w₂.store ctx.workflowId s.seq = some ((log w₁.store ctx.workflowId s.seq).getD
        { name := "DBOS.recv", output := some msg.message }) := by
      rw [log, hsteps, AList.lookup_insertNew_self]
      rfl
    have hown := (hgrows.slot hslot₁).row _ hrow
    exact ⟨hgrows, spec_found hrow (stepRowOutcome_output (hown.2 id))
      fun hnull => hr.2 (deliversNull_message.mpr hnull)⟩

theorem spec_getEvent {target key : String} (hs : s.seq = n)
    (hslot : Slot ctx.workflowId n (.getEvent T target key timeout) w.store) :
    wp (agreeing X ctx.workflowId n (.getEvent T target key timeout))
      (getEvent (provider X) ctx T target key timeout)
      (fun r _ => Observes ctx.workflowId n (.getEvent T target key timeout) r) s w := by
  subst hs
  refine wp_nextSeq (wp_nextSeq (wp_mono (fun _ _ _ ⟨row, hrow, hr⟩ => .of_eq hrow hr)
    (spec_wait (o := .getEvent T target key timeout) (fun _ => rfl) rfl (fun d s' w hslot => ?_)
      hslot)))
  refine wp_ask fun w₁ hw₁ r w₂ hr => ?_
  obtain ⟨rfl, rfl⟩ := handle_getEventValue hr.1
  have hslot₂ := hw₁.slot hslot
  refine ⟨.refl w₂, ?_⟩
  have hdelivered := hr.2
  cases hv : w₂.store.events.lookup (target, key) with
  | none => exact spec_waitOrTimeOut (o := .getEvent T target key timeout) trivial id hslot₂
  | some v =>
    rw [hv] at hdelivered
    have hnull : v ≠ .null := fun h => hdelivered (deliversNull_event.mpr h)
    rw [after_ok]
    refine wp_ask fun w₃ hw₃ r w₄ hr => ?_
    obtain ⟨hgrows, row, hrow, hown, rfl, -, hsame⟩ :=
      call_record (o := .getEvent T target key timeout) (hw₃.slot hslot₂) (fun _ => rfl) hr
    have hout := stepRowOutcome_output (hown.2 id)
    refine ⟨hgrows, ?_⟩
    rw [after_ok, hout]
    exact spec_found hrow hout fun h => hnull ((hsame rfl trivial).mp h)

/-- **An operation whose calls agree returns what its row says.** -/
theorem spec_op (ho : Observable o) (hwritable : Writable o) (hs : s.seq = n)
    (hslot : Slot ctx.workflowId n o w.store) :
    wp (agreeing X ctx.workflowId n o) (o.run (provider X) ctx)
      (fun r _ => Observes ctx.workflowId n o r) s w := by
  cases o with
  | step T name =>
    subst hs
    exact wp_nextSeq (spec_checkpointed (o := .step T name) trivial hwritable
      (fun _ _ h => spec_runStepCatching h) hslot)
  | stepWith T opts =>
    subst hs
    exact wp_nextSeq (spec_checkpointed (o := .stepWith T opts) trivial hwritable
      (fun _ _ h => spec_runWithRetries h) hslot)
  | select T branches => exact spec_select ho hwritable hs hslot
  | recv T topic timeout => exact spec_recv hs hslot
  | getEvent T target key timeout => exact spec_getEvent hs hslot
  | _ => exact ho.elim

end

end

/-! ## Races -/

section

variable {ε R : Type} (id : String) (n : Int) (o : Op)

/-- The calls of the operation at `n` agree, and every other operation leaves its sequence numbers
alone: all executions run `o` there. -/
def Agreeing (_ : Pool (Exec ε R) (Logged (World Inner) (Label R Inner)))
    (e : Pool.Happens (Exec ε R) (Label R Inner))
    (_ : Pool (Exec ε R) (Logged (World Inner) (Label R Inner))) : Prop :=
  match e with
  | .ran (.inside o' s _ _) (.inside _ (some ev)) =>
    (o' = o → s.seq = n → Agreed id n o ev.before.store ev.call ev.answer) ∧
    (¬(o' = o ∧ s.seq = n) → ∀ m, n ≤ m → m < n + o.width →
      log ev.after.store id m = log ev.before.store id m)
  | _ => True

variable [Serde DateTime]

/-- An execution of the operation at `n` will observe its row. -/
def Running (X : TextCodec) : Exec ε R → World Inner → Prop
  | .inside o' s p _, w => o' = o → s.seq = n →
      Proc.Safe (agreeing X id n o') p (fun r => Observes id n o' r.1) w
  | _, _ => True

/-- Every execution that is past the operation observed its row. -/
structure Inv (w : Logged (World Inner) (Label R Inner)) : Prop where
  slot : Slot id n o w.world.store
  past : ∀ r, Label.returned o n r ∈ w.past → Observes id n o r w.world

end

section

variable {ε R : Type} [Serde DateTime] {X : TextCodec} {ctx : DurableContext} {n : Int} {o : Op}
  {view : Error → ε} {p : Workflow ε R} {w w' : World Inner}

theorem Observes.grows {r : Except Error o.Result} (h : Observes id n o r w)
    (hw : Grows id n o w w') : Observes id n o r w' := by
  obtain ⟨row, hrow, hr⟩ := h
  exact ⟨row, hw.stay row hrow, hr⟩

theorem Running.grows {e : Exec ε R} (h : Running id n o X e w) (hw : Grows id n o w w') :
    Running id n o X e w' := by
  cases e with
  | inside o' s q k =>
    rintro rfl hs
    exact Proc.Safe.env (h rfl hs) .trans hw
  | «at» => trivial
  | finished => trivial

theorem Grows.of_same (ho : o.Waits → o.width = 2) (hwidth : 0 < o.width)
    (h : ∀ m, n ≤ m → m < n + o.width → log w'.store id m = log w.store id m) :
    Grows id n o w w' := by
  have hn := h n (le_refl n) (by omega)
  refine ⟨fun row hrow => by rw [hn, hrow], fun hslot =>
    ⟨fun row hrow => ?_, fun hwaits row hrow => ?_⟩⟩
  · rw [hn] at hrow
    exact hslot.row row hrow
  · rw [h (n + 1) (by omega) (by rw [ho hwaits]; omega)] at hrow
    exact hslot.timer hwaits row hrow

omit [Serde DateTime] in
theorem Observable.width (ho : Observable o) : 0 < o.width ∧ (o.Waits → o.width = 2) := by
  cases o with
  | select T branches => exact ⟨by rw [Op.width, if_neg ho]; decide, fun h => h.elim⟩
  | step | stepWith => exact ⟨Nat.zero_lt_one, fun h => h.elim⟩
  | recv | getEvent => exact ⟨Nat.zero_lt_two, fun _ => rfl⟩
  | _ => exact ho.elim

variable [LawfulSerde DateTime]

/-- **One step of an execution**: the rows of the operation stay, and it will observe them. -/
theorem exec_step (ho : Observable o) (hwritable : Writable o) {e e' : Exec ε R}
    {w w' : World (provider X).State} {l : Label R (provider X).State}
    (hs : Exec.Step (provider X) ctx view e w l e' w')
    (hslot : Slot ctx.workflowId n o w.store) (hrun : Running ctx.workflowId n o X e w)
    (hagree : ∀ a b, Agreeing (ε := ε) (R := R) ctx.workflowId n o a (.ran e l) b) :
    Grows ctx.workflowId n o w w' ∧ Running ctx.workflowId n o X e' w' ∧
      ∀ r, l = .returned o n r → Observes ctx.workflowId n o r w' := by
  cases hs with
  | begin =>
    refine ⟨.refl w, ?_, fun r h => by cases h⟩
    rintro rfl hs
    exact ⟨w, .refl w, spec_op ho hwritable hs hslot⟩
  | @inside o' k s _ _ q q' ev hstep =>
    by_cases hthis : o' = o ∧ s.seq = n
    · obtain ⟨rfl, hseq⟩ := hthis
      cases hstep with
      | call hr =>
        have hagreed := (hagree ⟨⟨w, []⟩, []⟩ ⟨⟨w, []⟩, []⟩).1 rfl hseq
        obtain ⟨hguar, hsafe⟩ := Proc.wp_step Grows.refl (hrun rfl hseq) (.call ⟨hr, hagreed⟩)
        exact ⟨hguar _ rfl, fun _ _ => hsafe, fun r h => by cases h⟩
      | unfold =>
        obtain ⟨-, hsafe⟩ := Proc.wp_step Grows.refl (hrun rfl hseq) .unfold
        exact ⟨.refl w, fun _ _ => hsafe, fun r h => by cases h⟩
    · refine ⟨?_, fun h hs => absurd ⟨h, hs⟩ hthis, fun r h => by cases h⟩
      cases hstep with
      | call hr =>
        have hsame := (hagree ⟨⟨w, []⟩, []⟩ ⟨⟨w, []⟩, []⟩).2 hthis
        exact .of_same ho.width.2 ho.width.1 hsame
      | unfold => exact .refl w
  | returned =>
    refine ⟨.refl w, trivial, fun r h => ?_⟩
    cases h
    obtain ⟨w₀, hw₀, hobserves⟩ := hrun rfl rfl
    exact hobserves.grows hw₀
  | finish => exact ⟨.refl w, trivial, fun r h => by cases h⟩

theorem keeps_inv (ho : Observable o) (hwritable : Writable o) :
    Pool.Keeps (racing (provider X) ctx view p (Waiting.Aside ctx.workflowId)).logged
      (Agreeing ctx.workflowId n o) (Inv ctx.workflowId n o)
      (fun e w => Running ctx.workflowId n o X e w.world) where
  start := by
    rintro e w rfl -
    trivial
  env := by
    rintro ⟨w, past⟩ ⟨w', past'⟩ ⟨haside, hpast⟩ hinv
    obtain rfl : past' = past := hpast
    have hgrows : Grows ctx.workflowId n o w w' :=
      .of_same ho.width.2 ho.width.1 fun m _ _ => haside m
    exact ⟨⟨hgrows.slot hinv.slot, fun r hr => (hinv.past r hr).grows hgrows⟩,
      fun e he => he.grows hgrows⟩
  run := by
    rintro pre post new e e' ⟨w, past⟩ ⟨w', past'⟩ l ⟨⟨hs, rfl⟩, hpast⟩ hok hinv hrun
    obtain rfl : past' = l :: past := hpast
    obtain ⟨hgrows, hrun', hreturned⟩ := exec_step ho hwritable hs hinv.slot hrun fun _ _ => hok
    refine ⟨⟨hgrows.slot hinv.slot, fun r hr => ?_⟩, hrun', by simp, fun u _ hu => hu.grows hgrows⟩
    rcases mem_cons.mp hr with hl | hold
    · exact hreturned r hl.symm
    · exact (hinv.past r hold).grows hgrows

end

/-- **All racing executions observe the recorded outcome** of an operation, in every interleaving in
which the calls of the operation agree with what is recorded. -/
theorem observed_recorded [Serde DateTime] [LawfulSerde DateTime] {ε R : Type} {X : TextCodec}
    {ctx : DurableContext} {view : Error → ε} {p : Workflow ε R} {o : Op} {n : Int}
    {w₀ : World Inner} (ho : Observable o) (hwritable : Writable o)
    (h₀ : Slot ctx.workflowId n o w₀.store)
    {c : Pool (Exec ε R) (Logged (World Inner) (Label R Inner))}
    (hr : Pool.Run (racing (provider X) ctx view p (Waiting.Aside ctx.workflowId)).logged
      (Agreeing ctx.workflowId n o) ⟨⟨w₀, []⟩, []⟩ c) {r : Except Error o.Result}
    (hreturned : .returned o n r ∈ c.world.past) : Observes ctx.workflowId n o r c.world.world := by
  have hinit : Inv (R := R) ctx.workflowId n o ⟨w₀, []⟩ := ⟨h₀, fun r h => by cases h⟩
  exact (hr.invariant (keeps_inv ho hwritable) hinit (by simp)).1.past r hreturned

/-! ## Runs -/

section

attribute [local instance] serdeNanos

/-- A workflow of one step. -/
def charge : Workflow String (Except String Nat) := .op (.step Nat "charge") .done

/-- Nothing is stored. -/
def blank : World Inner := ⟨{}, ⟨0⟩⟩

/-- Two executions, and the second is told what the first recorded. -/
theorem observed_recorded_charge : ∃ c,
    Pool.Run (racing (provider noText) wfContext Error.message charge (Waiting.Aside "wf")).logged
      (Agreeing "wf" 0 (.step Nat "charge")) ⟨⟨blank, []⟩, []⟩ c ∧
    .returned (.step Nat "charge") 0 (.ok 1) ∈ c.world.past ∧
    Observes "wf" 0 (.step Nat "charge") (.ok 1) c.world.world := by
  have hjoined : Pool.Run (racing (provider noText) wfContext Error.message charge
      (Waiting.Aside "wf")).logged (Agreeing "wf" 0 (.step Nat "charge")) ⟨⟨blank, []⟩, []⟩ _ :=
    joins (joins (.refl _) trivial) trivial
  have hown {P Q : Prop} (h : P) : (Op.step Nat "charge" = .step Nat "charge" → (0 : Int) = 0 → P) ∧
      (¬(Op.step Nat "charge" = .step Nat "charge" ∧ (0 : Int) = 0) → Q) :=
    ⟨fun _ _ => h, fun hnot => absurd ⟨rfl, rfl⟩ hnot⟩
  have hlive : (blank.store.workflows.lookup "wf").map WorkflowStatus.status ≠ some .cancelled := by
    decide
  have hfirst := takes (takes (takes (takes (takes hjoined 0 rfl .begin trivial)
    0 rfl (.inside (.call told)) (hown fun h => h)) 0 rfl (.inside (.call told)) (hown hlive))
    0 rfl (.inside (.call ⟨rfl, rfl⟩)) (hown fun h => h))
    0 rfl (.inside (.call (r := .returned (.ok 1)) rfl)) (hown fun h => h)
  have hsecond := takes (takes (takes (takes (takes hfirst 1 rfl .begin trivial)
    1 rfl (.inside (.call told)) (hown fun h => h)) 1 rfl (.inside (.call told)) (hown hlive))
    1 rfl (.inside (.call ⟨rfl, rfl⟩)) (hown fun h => h))
    1 rfl (.inside (.call (r := .returned (.ok 2)) rfl)) (hown fun h => h)
  have hrecorded := takes (takes (takes hsecond 0 rfl (.inside (.call told)) (hown fun _ _ _ h =>
    h.elim)) 1 rfl (.inside (.call told)) (hown fun _ _ _ h => h.elim)) 1 rfl .returned trivial
  have hslot : Slot "wf" 0 (.step Nat "charge") blank.store := by
    refine ⟨fun row hrow => ?_, fun h => h.elim⟩
    cases hrow
  have hwritable : Writable (.step Nat "charge") := fun v => ⟨_, rfl⟩
  have hlawful := lawful_serdeNanos
  exact ⟨_, hrecorded, mem_cons_self, observed_recorded (o := .step Nat "charge") trivial
    hwritable hslot hrecorded mem_cons_self⟩

/-- **Two executions of one step observe different failures.** -/
theorem failures_observed_differ : ∃ c,
    Pool.Run (racing (provider noText) wfContext Error.message charge (Waiting.Aside "wf")).logged
      (fun _ _ _ => True) ⟨⟨blank, []⟩, []⟩ c ∧
    .returned (.step Nat "charge") 0 (.error (.app "declined")) ∈ c.world.past ∧
    .returned (.step Nat "charge") 0 (.error (.app "unreachable")) ∈ c.world.past ∧
    ¬Observes "wf" 0 (.step Nat "charge") (.error (.app "unreachable")) c.world.world := by
  have hjoined : Pool.Run (racing (provider noText) wfContext Error.message charge
      (Waiting.Aside "wf")).logged (fun _ _ _ => True) ⟨⟨blank, []⟩, []⟩ _ :=
    joins (joins (.refl _) trivial) trivial
  have hfirst := takes (takes (takes (takes (takes hjoined 0 rfl .begin trivial)
    0 rfl (.inside (.call told)) trivial) 0 rfl (.inside (.call told)) trivial)
    0 rfl (.inside (.call ⟨rfl, rfl⟩)) trivial)
    0 rfl (.inside (.call (r := .returned (.error (.app "declined"))) rfl)) trivial
  have hsecond := takes (takes (takes (takes (takes hfirst 1 rfl .begin trivial)
    1 rfl (.inside (.call told)) trivial) 1 rfl (.inside (.call told)) trivial)
    1 rfl (.inside (.call ⟨rfl, rfl⟩)) trivial)
    1 rfl (.inside (.call (r := .returned (.error (.app "unreachable"))) rfl)) trivial
  have hrecorded := takes (takes (takes (takes hsecond 0 rfl (.inside (.call told)) trivial)
    1 rfl (.inside (.call told)) trivial) 0 rfl .returned trivial) 1 rfl .returned trivial
  refine ⟨_, hrecorded, mem_cons_of_mem _ mem_cons_self, mem_cons_self, ?_⟩
  rintro ⟨row, hrow, hr⟩
  cases hrow
  have hmessage : (.error "unreachable" : Except String Nat) = .error "declined" := hr
  exact absurd (Except.error.inj hmessage) (by decide)

end

end Durare.Observed
