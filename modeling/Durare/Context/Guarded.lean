import Durare.Context.Divergence

/-!
# Context/Guarded — operations of a cancelled workflow

A workflow is cancelled by writing its row, and its executions find out when they next ask.  The
cancellation guard sits in `replayOrGuard`, behind the lookup of a step.  Two operations do not go
through it: `startWorkflow` looks for its child in a way of its own, and a transactional step leaves
everything to the backend, which asks only between two conflicting transactions.

* `AnswersCancelled` — the operation returns `Cancelled` and does nothing else.
* `cancelled_refuses_iff` — the operations that do are the guarded ones.
-/

namespace Durare

open Option

open Verb

/-- The operations with an effect of their own, at a sequence number of their own. -/
def Op.Effectful : Op → Prop
  | @Op.select _ _ branches => branches ≠ 0
  | .sleep _ => False
  | .now => False
  | .uuid => False
  | .random => False
  | .patch _ => False
  | _ => True

/-- The operations that ask the cancellation guard. -/
def Op.Guarded : Op → Prop
  | @Op.startWorkflow _ _ _ _ _ => False
  | @Op.transaction _ _ _ => False
  | o => o.Effectful

/-- The status of a workflow. -/
def Backend.status : (b : Backend) → b.provider.State → String → Option Status
  | .memory _, g, id => (AList.lookup id (g : Memory.Inner).workflows).map WorkflowStatus.status
  | .sqlite _ _ _, db, id =>
    (AList.lookup id (db : Sqlite.Db).workflowStatus).map Sqlite.StatusRow.status

/-- The result is not the error of a cancelled workflow. -/
def Spared {α : Type} (r : Except Error α) : Prop := ∀ id, r ≠ .error (.cancelled id)

/-- A serializer of the application's own does not fail with the error of a cancelled workflow. -/
def Backend.Spares : Backend → Prop
  | .memory _ => True
  | .sqlite X z _ => ∀ v, Spared (z.encode X v)

namespace Guarded

section

variable (b : Backend) (ctx : DurableContext)

/-- The row at `n` stays as it is, and the workflow stays cancelled. -/
structure Still (n : Int) (w w' : World b.provider.State) : Prop where
  row : SameRow b.journal ctx n w w'
  cancelled : b.status w.store ctx.workflowId = some .cancelled →
    b.status w'.store ctx.workflowId = some .cancelled

variable [Serde DateTime]

/-- The operation returns `Cancelled` and does nothing else. -/
structure AnswersCancelled (o : Op) (s : CtxState) (w : World b.provider.State) : Prop where
  /-- it returns -/
  returns : ∃ es r w', Proc.Runs b.provider.handle (Still b ctx s.seq) (o.run b.provider ctx s) w es
    r w' ∧ ∀ ev ∈ es, ¬ev.call.Fails ev.answer
  /-- whenever it does, it returns `Cancelled`, and it ran no closure, started no workflow and
  changed nothing in the store -/
  only : ∀ es r w', Proc.Runs b.provider.handle (Still b ctx s.seq) (o.run b.provider ctx s) w es r
    w' → (∀ ev ∈ es, ¬ev.call.Fails ev.answer) → r.1 = .error (.cancelled ctx.workflowId) ∧
      ∀ ev ∈ es, ¬ev.call.RunsClosure ∧ ¬ev.call.Spawns ∧ ev.after.store = ev.before.store

end

variable {id : String} {r : Except Error (Option WorkflowStatus)}

section

variable {b : Backend} {ctx : DurableContext} {n : Int} {s : CtxState} {w : World b.provider.State}

theorem Still.refl (w : World b.provider.State) : Still b ctx n w w := ⟨.refl w, id⟩

theorem Still.trans {a c d : World b.provider.State} (h : Still b ctx n a c)
    (h' : Still b ctx n c d) :
    Still b ctx n a d := ⟨h.row.trans h'.row, fun ha => h'.cancelled (h.cancelled ha)⟩

/-- A reading of the status answers the status and changes nothing. -/
theorem handle_getWorkflowStatus {w' : World b.provider.State}
    (h : b.provider.handle (.provider (.getWorkflowStatus id)) w r w') :
    w' = w ∧ ∃ found, r = .ok found ∧ found.map WorkflowStatus.status = b.status w.store id := by
  obtain ⟨uuid, rfl, rfl⟩ := Provider.handle_provider.mp h
  cases b with
  | memory X => exact ⟨rfl, _, rfl, rfl⟩
  | sqlite X z hz =>
    refine ⟨rfl, _, rfl, ?_⟩
    rw [Option.map_map]
    rfl

/-! ## The guarded operations -/

/-- **A guarded operation begins with a lookup and the guard.** -/
theorem run_guarded [Serde DateTime] (P : Provider) (ctx : DurableContext) {o : Op} (ho : o.Guarded)
    (s : CtxState) :
    ∃ (T : Type) (_ : Serde T) (f : Option T → Verb o.Result) (s' : CtxState),
      o.run P ctx s = (replayOrGuard ctx T s.seq o.name >>= f) s' := by
  cases o with
  | select T branches =>
    have hrun : (Op.select T branches).run P ctx s = _ := congrFun (if_neg ho) s
    rw [hrun]
    exact ⟨_, _, _, _, rfl⟩
  | startWorkflow | transaction | sleep | now | uuid | random | patch => exact ho.elim
  | _ => exact ⟨_, _, _, _, rfl⟩

variable {w₁ w₂ : World b.provider.State}

theorem handle_lookup {r : Except Error (Option RecordedStep)}
    (hrow : b.journal.row w.store ctx.workflowId n = none) (hw : SameRow b.journal ctx n w w₁)
    (h : b.provider.handle (.provider (.getStepResult ctx.workflowId n)) w₁ r w₂) :
    w₂ = w₁ ∧ r = .ok none := by
  obtain ⟨rfl, rfl⟩ := b.lawful.lookup h
  have hnone : b.journal.row w₂.store ctx.workflowId n = none := Eq.trans hw hrow
  exact ⟨rfl, by rw [hnone, elim_none]⟩

theorem handle_cancelled (hc : b.status w₁.store ctx.workflowId = some .cancelled)
    (h : b.provider.handle (.provider (.getWorkflowStatus ctx.workflowId)) w₁ r w₂) :
    w₂ = w₁ ∧ ∃ status, r = .ok (some status) ∧ status.status = .cancelled := by
  obtain ⟨rfl, found, rfl, hfound⟩ := handle_getWorkflowStatus h
  rw [hc, map_eq_some_iff] at hfound
  obtain ⟨status, rfl, hstatus⟩ := hfound
  exact ⟨rfl, status, rfl, hstatus⟩

/-- Calls of an operation that is refused: they only look. -/
def refusing (b : Backend) (ctx : DurableContext) (n : Int) :
    Proc.Judge Eff Answer (World b.provider.State) where
  handle e w r w' := b.provider.handle e w r w' ∧ ¬e.Fails r
  rely := Still b ctx n
  guar e w _ w' := ¬e.RunsClosure ∧ ¬e.Spawns ∧ w'.store = w.store

variable [Serde DateTime] {o : Op}

/-- A guarded operation of a cancelled workflow can return: two calls suffice. -/
theorem runs_guarded (ho : o.Guarded) (hrow : b.journal.row w.store ctx.workflowId s.seq = none)
    (hc : b.status w.store ctx.workflowId = some .cancelled) :
    ∃ es r w', Proc.Runs b.provider.handle (Still b ctx s.seq) (o.run b.provider ctx s) w es r w' ∧
      ∀ ev ∈ es, ¬ev.call.Fails ev.answer := by
  obtain ⟨T, hT, f, s', hrun⟩ := run_guarded b.provider ctx ho s
  have hlookup : b.provider.handle (.provider (.getStepResult ctx.workflowId s.seq)) w _ _ := told
  obtain ⟨hw, hr⟩ := handle_lookup hrow (.refl w) hlookup
  rw [hr, hw] at hlookup
  have hstatus : b.provider.handle (.provider (.getWorkflowStatus ctx.workflowId)) w _ _ := told
  obtain ⟨hw', status, hr', hcancelled⟩ := handle_cancelled hc hstatus
  rw [hr', hw'] at hstatus
  have hrefused : Proc.Runs b.provider.handle (Still b ctx s.seq)
      ((replayOrGuard ctx T s.seq o.name >>= f) s') w
      [⟨.provider (.getStepResult ctx.workflowId s.seq), w, .ok none, w⟩,
        ⟨.provider (.getWorkflowStatus ctx.workflowId), w, .ok (some status), w⟩]
      (.error (.cancelled ctx.workflowId), s') w := by
    refine .call hlookup (.call hstatus ?_)
    change Proc.Runs _ _ (((if status.status = .cancelled then fail (.cancelled ctx.workflowId)
      else pure none : Verb (Option T)) s').bind (andThen f)) _ _ _ _
    rw [if_pos hcancelled]
    exact .ret
  rw [hrun]
  refine ⟨_, _, _, hrefused, ?_⟩
  simp [Eff.Fails]

/-- **A guarded operation of a cancelled workflow is refused.** -/
theorem refuses_guarded (ho : o.Guarded) (hrow : b.journal.row w.store ctx.workflowId s.seq = none)
    (hc : b.status w.store ctx.workflowId = some .cancelled) : AnswersCancelled b ctx o s w where
  returns := runs_guarded ho hrow hc
  only es r w' hrun hok := by
    obtain ⟨T, hT, f, s', heq⟩ := run_guarded b.provider ctx ho s
    have hwp : wp (refusing b ctx s.seq) (o.run b.provider ctx)
        (fun r _ _ => r = .error (.cancelled ctx.workflowId)) s w := by
      refine wp_of_eq heq (wp_replayOrGuard fun w₁ hw₁ r w₂ hr => ?_)
      obtain ⟨rfl, rfl⟩ := handle_lookup hrow hw₁.row hr.1
      refine ⟨⟨fun h => h, fun h => h, rfl⟩, wp_unlessCancelled fun w₃ hw₃ r w₄ hr' => ?_⟩
      obtain ⟨rfl, status, rfl, hstatus⟩ :=
        handle_cancelled (hw₃.cancelled (hw₁.cancelled hc)) hr'.1
      refine ⟨⟨fun h => h, fun h => h, rfl⟩, ?_⟩
      dsimp only
      rw [map_some, hstatus, if_pos rfl]
    have hrun' : Proc.Runs (refusing b ctx s.seq).handle (refusing b ctx s.seq).rely
        (o.run b.provider ctx s) w es r w' :=
      hrun.mono (fun _ _ h => h) fun ev hev hr => ⟨hr, hok ev hev⟩
    obtain ⟨hguar, w₀, -, hr⟩ := Proc.wp_runs Still.refl Still.trans hrun' ⟨w, .refl w, hwp⟩
    exact ⟨hr, hguar⟩

/-! ## The other two -/

/-- An operation that cannot come to `Cancelled` without running a closure or starting a workflow is
not refused. -/
theorem AnswersCancelled.false_of_wp (h : wp (blind b.journal ctx s.seq) (o.run b.provider ctx)
      (fun r _ _ => r ≠ .error (.cancelled ctx.workflowId)) s w)
    (hd : AnswersCancelled b ctx o s w) : False := by
  obtain ⟨es, r, w', hrun, hok⟩ := hd.returns
  obtain ⟨hr, hquiet⟩ := hd.only es r w' hrun hok
  have hrun' : Proc.Runs (blind b.journal ctx s.seq).handle (blind b.journal ctx s.seq).rely
      (o.run b.provider ctx s) w es r w' := hrun.mono (fun _ _ h => h.row) fun ev hev h =>
    ⟨h, hok ev hev, (hquiet ev hev).1, (hquiet ev hev).2.1⟩
  obtain ⟨-, w₀, -, hnot⟩ := Proc.wp_runs SameRow.refl SameRow.trans hrun' ⟨w, .refl w, h⟩
  exact hnot hr

end

variable {name : String} {opts : WorkflowOptions}

section

variable {b : Backend} {ctx : DurableContext} {n : Int} {α β : Type}

/-- The method does not come to the error of a cancelled workflow on its own. -/
def Spares (b : Backend) (ctx : DurableContext) (n : Int) (x : Verb α) : Prop :=
  ∀ s w, wp (blind b.journal ctx n) x (fun r _ _ => Spared r) s w

theorem spared_ok (a : α) : Spared (.ok a : Except Error α) := fun _ h => by cases h

theorem spared_error {e : Error} (h : e.code ≠ .workflowCancelled) :
    Spared (.error e : Except Error α) := by
  rintro id ⟨rfl⟩
  exact h rfl

theorem spares_bind {x : Verb α} {f : α → Verb β} (hx : Spares b ctx n x)
    (hf : ∀ a, Spares b ctx n (f a)) : Spares b ctx n (x >>= f) := by
  intro s w
  refine wp_bind (wp_mono (fun r s' w' hr => ?_) (hx s w))
  cases r with
  | ok a => exact hf a s' w'
  | error e =>
    rintro id ⟨rfl⟩
    exact hr id rfl

theorem spares_ofExcept {r : Except Error α} (h : Spared r) : Spares b ctx n (ofExcept r) :=
  fun _ _ => h

theorem spares_pure {a : α} : Spares b ctx n (pure a) := spares_ofExcept (spared_ok a)

theorem spares_fail {e : Error} (h : e.code ≠ .workflowCancelled) :
    Spares b ctx n (fail e : Verb α) := spares_ofExcept (spared_error h)

theorem spares_perform {e : Eff} : Spares b ctx n (perform e) :=
  fun _ _ _ _ _ _ _ => ⟨trivial, spared_ok _⟩

theorem spares_toValue {T : Type} [Serde T] {v : T} : Spares b ctx n (toValue v) := by
  refine spares_ofExcept ?_
  cases Serde.toValue v with
  | ok j => exact spared_ok j
  | error m => exact spared_error nofun

theorem spares_ask {c : ProviderCall}
    (h : ∀ {w w' : World b.provider.State} {r}, b.provider.handle (.provider c) w r w' → Spared r) :
    Spares b ctx n (ask c) :=
  fun _ _ _ _ _ _ hr => ⟨trivial, h hr.1⟩

variable {w w' : World b.provider.State}

/-- A row is inserted, found, or refused for its deduplication id. -/
theorem spared_insert (hb : b.Spares) {status : WorkflowStatus}
    {r : Except Error (WorkflowStatus × Bool)}
    (h : b.provider.handle (.provider (.insertWorkflowStatus status)) w r w') : Spared r := by
  obtain ⟨uuid, rfl, -⟩ := Provider.handle_provider.mp h
  cases b with
  | memory X =>
    change Spared (Memory.insertWorkflowStatus status w.store).1
    rcases Memory.insertWorkflowStatus_cases status w.store with
      ⟨queue, dedup, -, -, -, heq⟩ | ⟨-, heq⟩
    · rw [heq]
      exact spared_error nofun
    · rw [heq]
      unfold Memory.insertWorkflowStatus.insert
      split
      · exact spared_ok _
      · exact spared_ok _
  | sqlite X z hz =>
    change Spared (Sqlite.insertWorkflowStatus X z w.clock status w.store).1
    unfold Sqlite.insertWorkflowStatus
    split
    · next e he =>
        cases z with
        | json => cases he
        | portable => cases he
        | custom name encode decode =>
          rintro id ⟨rfl⟩
          exact hb _ id he
    · split
      · exact spared_ok _
      · dsimp only
        split_ifs
        · exact spared_error nofun
        · exact spared_ok _

theorem spared_recordChild {child : String} {seq : Int} {r : Except Error Unit}
    (h : b.provider.handle (.provider (.recordChildWorkflow id seq name child)) w r w') :
    Spared r := by
  obtain ⟨uuid, rfl, -⟩ := Provider.handle_provider.mp h
  cases b with
  | memory X => exact spared_ok _
  | sqlite X z hz =>
    change Spared (Sqlite.insertOnly _ _ _ _).1
    unfold Sqlite.insertOnly Sqlite.insertOperation
    split_ifs
    · exact spared_ok _
    · exact spared_error (by decide)
    · exact spared_ok _

theorem spares_insertRun (hb : b.Spares) {rt : Runtime} {input : Value} {parent : Option String}
    {auth : AuthContext} : Spares b ctx n (insertRun rt id name input opts parent auth) := by
  have hinsert : Spares b ctx n (insertRun.insert rt id name input opts parent auth) :=
    spares_bind spares_perform fun _ => spares_bind spares_perform fun _ =>
      spares_bind (spares_ask (spared_insert hb)) fun _ => spares_pure
  unfold insertRun
  split
  · split
    · exact spares_fail nofun
    · exact hinsert
  · split
    · exact spares_fail nofun
    · exact hinsert

theorem spares_startWorkflow (hb : b.Spares) {I : Type} [Serde I] {input : I} :
    Spares b ctx n (startWorkflow ctx I name input opts) := by
  refine spares_bind (fun _ _ => spared_ok _) fun seq => spares_bind (spares_ask fun h => ?_)
    fun found => ?_
  · obtain ⟨-, rfl⟩ := b.lawful.checkChild h
    exact spared_ok _
  · cases found with
    | some child =>
      dsimp only
      split
      · exact spares_fail nofun
      · exact spares_pure
    | none =>
      refine spares_bind spares_toValue fun _ => spares_bind ?_ fun _ =>
        spares_bind (spares_ask spared_recordChild) fun _ => spares_pure
      unfold spawnChild
      dsimp only
      split
      · exact spares_fail nofun
      · refine spares_bind (spares_insertRun hb) fun _ => ?_
        split
        · exact spares_perform
        · exact spares_pure

variable [Serde DateTime] {s : CtxState} {w : World b.provider.State}

/-- **A child is started whatever the status of its parent.** -/
theorem not_refuses_startWorkflow (hb : b.Spares) {I : Type} [Serde I] {input : I} :
    ¬AnswersCancelled b ctx (.startWorkflow I name input opts) s w := by
  have hspares : Spares b ctx s.seq (startWorkflow ctx I name input opts) := spares_startWorkflow hb
  exact AnswersCancelled.false_of_wp (wp_mono (fun r _ _ hr => hr ctx.workflowId) (hspares s w))

/-- **A transactional step runs its body whatever the status of its workflow**, where it runs at
all. -/
theorem not_refuses_transaction {T : Type} [Serde T] {opts : TransactionOptions}
    (hrow : b.journal.row w.store ctx.workflowId s.seq = none) :
    ¬AnswersCancelled b ctx (.transaction T opts) s w := by
  refine AnswersCancelled.false_of_wp ?_
  by_cases hs : s.inTransaction
  · obtain ⟨seq, flag⟩ := s
    cases hs
    exact spared_error (by simp [Error.code]) ctx.workflowId
  · refine wp_transactionWith (Bool.eq_false_iff.mpr hs) fun w₁ hw₁ started w₂ hr => ⟨trivial, ?_⟩
    obtain ⟨⟨rfl, rfl⟩, -⟩ := hr
    cases b with
    | memory X => exact spared_error (by simp [Error.code]) ctx.workflowId
    | sqlite X z hz =>
      refine Sqlite.wp_runTransactionStep fun w₃ hw₃ r w₄ hq => ⟨trivial, ?_⟩
      have hselect : Sqlite.DbError r ∨
        r = .ok (AList.lookup (ctx.workflowId, s.seq) (w₃.store : Sqlite.Db).operationOutputs) :=
          hq.1.1.1
      have hnone : AList.lookup (ctx.workflowId, s.seq) (w₃.store : Sqlite.Db).operationOutputs =
        none := Eq.trans (hw₁.trans hw₃) hrow
      rw [hnone] at hselect
      obtain rfl := hselect.resolve_left hq.2.1
      exact after_ok.mpr (wp_mono (fun _ _ _ h => h.elim) (Sqlite.stuck_userLoop {} w₄))

end

end Guarded

/-- **A cancelled workflow is refused an operation iff the operation asks the guard.** -/
theorem cancelled_refuses_iff [Serde DateTime] {b : Backend} (hb : b.Spares) {ctx : DurableContext}
    {o : Op} (ho : o.Effectful) {s : CtxState} {w : World b.provider.State}
    (hrow : b.journal.row w.store ctx.workflowId s.seq = none)
    (hc : b.status w.store ctx.workflowId = some .cancelled) :
    Guarded.AnswersCancelled b ctx o s w ↔ o.Guarded := by
  cases o with
  | startWorkflow I name input opts => exact iff_of_false (Guarded.not_refuses_startWorkflow hb) id
  | transaction T opts => exact iff_of_false (Guarded.not_refuses_transaction hrow) id
  | sleep | now | uuid | random | patch => exact ho.elim
  | _ => exact iff_of_true (Guarded.refuses_guarded ho hrow hc) ho

section

attribute [local instance] serdeNanos

/-- The workflow `wf` was started and then cancelled, in memory. -/
def stopped : World Memory.Inner where
  store := (Memory.cancelWorkflow ⟨0⟩ "wf" (Memory.insertWorkflowStatus
    (.new ⟨0⟩ "wf" "transfer" .null .pending "local" "") {}).2).2
  clock := ⟨0⟩

/-- The same in the database. -/
def stoppedDb : World Sqlite.Db where
  store := (Sqlite.cancelWorkflow ⟨0⟩ "wf" (Sqlite.insertWorkflowStatus noText .portable ⟨0⟩
    (.new ⟨0⟩ "wf" "transfer" .null .pending "local" "") {}).2).2
  clock := ⟨0⟩

theorem cancelled_refuses_iff_step :
    Guarded.AnswersCancelled (.memory noText) caller (.step Nat "charge") {} stopped := by
  have heffectful : (Op.step Nat "charge").Effectful := trivial
  exact (cancelled_refuses_iff (b := .memory noText) (w := stopped) trivial heffectful rfl rfl).mpr
    heffectful

/-- **Effects of a cancelled workflow**, with nobody else around.  In memory it starts a child; over
SQLite it runs the body of a transaction and commits it. -/
theorem cancelled_goes_on :
    (stopped.store.workflows.lookup "wf").map WorkflowStatus.status = some .cancelled ∧
    Proc.May (Memory.provider noText).handle Eq
      ((Op.startWorkflow Value "invoice" .null {}).run (Memory.provider noText) caller {}) stopped
      (fun _ r w => r.1 = .ok "wf-0" ∧ (w.store.workflows.lookup "wf-0").isSome) ∧
    (stoppedDb.store.workflowStatus.lookup "wf").map Sqlite.StatusRow.status = some .cancelled ∧
    Proc.May (Sqlite.provider noText .portable).handle Eq
      ((Op.transaction Value { name := "transfer" }).run
        (Sqlite.provider noText .portable) caller {})
      stoppedDb
      (fun _ r w => r.1 = .ok .null ∧ w.store.application = [⟨"wf", 0, Sqlite.transfer⟩]) := by
  refine ⟨rfl, ?_, rfl, ?_⟩
  · exact .call told (.call ⟨rfl, rfl⟩ (.call ⟨rfl, rfl⟩ (.call told (.call (r := ()) rfl
      (.call told (.ret ⟨rfl, rfl⟩))))))
  · exact .call ⟨rfl, rfl⟩ (.call ⟨⟨.inr rfl, rfl⟩, rfl⟩ (.unfold (.unfold
      (.call ⟨⟨.inr rfl, rfl⟩, rfl⟩ (.call (r := .ok (.null, Sqlite.transfer)) ⟨rfl, rfl⟩
        (.call ⟨rfl, rfl⟩ (.call ⟨⟨.inr ⟨rfl, rfl⟩, rfl⟩, rfl⟩
          (.call (Sqlite.handle_commit (.inl rfl)) (.ret ⟨rfl, rfl⟩)))))))))

end

end Durare
