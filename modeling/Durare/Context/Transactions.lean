import Durare.Context.Sqlite
import Durare.Machinery.Interleave

/-!
# Context/Transactions — how often a transactional step commits its writes

Any number of executions of one workflow reach `runTransactionStep` at one sequence number, over
SQLite, interleaved in any way and lost at any point.

The replay check stands before the transaction, and the checkpoint inside it is `ON CONFLICT DO
NOTHING`: a transaction that finds a row at its sequence number **commits the writes of its body all
the same**.  Two ways lead there — a second execution past its check, and a commit that took effect
but was answered by a lost connection, after which the loop runs the body again.

`keeps_once` is the invariant: as long as every commit finds no row, the writes are committed at
most once.
-/

namespace Durare.Sqlite

/-- How often the writes of the step were committed. -/
def commits (workflowId : String) (seq : Int) (w : World Db) : Nat :=
  w.store.application.countP fun b => b.workflowUuid = workflowId && b.functionId = seq

/-- The row recorded for the step. -/
def stepRow (workflowId : String) (seq : Int) (w : World Db) : Option OperationRow :=
  w.store.operationOutputs.lookup (workflowId, seq)

/-- An execution inside `run_transaction_step`. -/
abbrev Execution := Proc Eff Answer (Except Error Value)

/-- What an execution is seen to do. -/
abbrev Seen := Option (Proc.Event Eff Answer (World Db))

/-- The rest of the system: it leaves the row of the step and its committed writes alone. -/
structure Others (workflowId : String) (seq : Int) (w w' : World Db) : Prop where
  row : stepRow workflowId seq w' = stepRow workflowId seq w
  commits : commits workflowId seq w' = commits workflowId seq w

/-- Executions that reach the step, at any time and with any options. -/
def executions (X : TextCodec) (s : Serializer) (workflowId : String) (seq : Int) :
    Threads Execution (World Db) Seen :=
  .ofProc (provider X s).handle (fun _ => [])
    (fun _ t => ∃ startedAtMs opts, t = runTransactionStep X s workflowId seq startedAtMs opts)
    (Others workflowId seq)

variable {w w' : World Db}

section

variable {X : TextCodec} {s : Serializer} {workflowId : String} {seq : Int}

/-! ## What an execution can do -/

/-- The effects of an execution of the step; a row it writes has an outcome. -/
inductive Own (workflowId : String) (seq : Int) : Eff → Prop where
  | utcNow : Own workflowId seq .utcNow
  | sleep (d : Duration) : Own workflowId seq (.sleep d)
  | selectOperation : Own workflowId seq (.sql (.selectOperation workflowId seq))
  | begin : Own workflowId seq (.sql .begin)
  | body : Own workflowId seq (.sql (.body workflowId seq))
  | insertOperation (row : OperationRow) :
      Own workflowId seq (.sql (.insertOperation workflowId seq row))
  | commit (writes : List String) {row : OperationRow} (h : row.output.isSome) :
      Own workflowId seq (.sql (.commit workflowId seq writes row))
  | rollback : Own workflowId seq (.sql .rollback)
  | selectStatus : Own workflowId seq (.sql (.selectStatus workflowId))
  | insertFailure {row : OperationRow} (h : row.error.isSome) :
      Own workflowId seq (.sql (.insertFailure workflowId seq row))

open Verb

theorem calls_conflictRetryWait (attempt : Nat) :
    (conflictRetryWait workflowId attempt).Calls (Own workflowId seq) := by
  refine calls_bind (calls_attempt (calls_query .selectStatus)) fun r => ?_
  split
  · exact calls_fail
  · exact calls_perform (.sleep _)

variable {startedAtMs : Int}

theorem calls_transactionAttempt {name : String} :
    (transactionAttempt X s workflowId seq startedAtMs name).Calls (Own workflowId seq) := by
  refine calls_bind (calls_query .begin) fun _ => ?_
  refine calls_bind (calls_attempt (calls_query .body)) fun r => ?_
  split
  · refine calls_bind calls_ofExcept fun output => calls_bind (calls_perform .utcNow) fun now => ?_
    refine calls_bind (calls_query (.insertOperation _)) fun _ => ?_
    exact calls_bind (calls_query (.commit _ rfl)) fun _ => calls_pure
  · split
    · exact calls_fail
    · exact calls_bind (calls_query .rollback) fun _ => calls_fail

theorem calls_conflictLoop {name : String} :
    (conflictLoop X s workflowId seq startedAtMs name).Calls (Own workflowId seq) := by
  refine calls_loop (fun attempt => calls_bind (calls_attempt calls_transactionAttempt) ?_) _
  intro r
  split
  · exact calls_pure
  · split
    · exact calls_bind (calls_conflictRetryWait attempt) fun _ => calls_pure
    · exact calls_pure

variable {opts : TransactionOptions}

theorem calls_userLoop :
    (userLoop X s workflowId seq startedAtMs opts).Calls (Own workflowId seq) := by
  refine calls_loop (fun attempt => calls_bind calls_conflictLoop fun r => ?_) _
  split
  · exact calls_pure
  · split
    · exact calls_bind (calls_perform (.sleep _)) fun _ => calls_pure
    · refine calls_bind (calls_perform .utcNow) fun now => ?_
      exact calls_bind (calls_query (.insertFailure rfl)) fun _ => calls_fail

/-- **An execution of the step keeps to its own statements.** -/
theorem calls_runTransactionStep :
    (runTransactionStep X s workflowId seq startedAtMs opts).Calls (Own workflowId seq) := by
  have hstep : (transactionStep X s workflowId seq startedAtMs opts).Calls
      (Own workflowId seq) := by
    refine calls_bind (calls_query .selectOperation) fun found => ?_
    split
    · refine calls_bind calls_ofExcept fun outcome => ?_
      split
      · split
        · exact calls_fail
        · exact calls_ofExcept
      · exact calls_userLoop
    · exact calls_userLoop
  exact (hstep {}).bind fun _ => trivial

/-! ## What its effects do -/

variable {row : OperationRow} {writes : List String}

theorem commits_applied :
    commits workflowId seq ⟨w.store.applied workflowId seq writes row, w.clock⟩ =
      commits workflowId seq w + 1 := by
  simp [commits, Db.applied, List.countP_append]

/-- What an effect of the step does to its row and its commits: nothing, or a durable failure is
recorded, or a transaction is applied. -/
inductive Effect (workflowId : String) (seq : Int) (e : Eff) (w w' : World Db) : Prop where
  | quiet (h : Others workflowId seq w w')
  | failure (row : OperationRow) (hnone : stepRow workflowId seq w = none)
      (hrow : stepRow workflowId seq w' = some row) (herror : row.error.isSome)
      (hcommits : commits workflowId seq w' = commits workflowId seq w)
  | applied (writes : List String) (row : OperationRow) (houtput : row.output.isSome)
      (he : e = .sql (.commit workflowId seq writes row))
      (hrow : stepRow workflowId seq w' = some ((stepRow workflowId seq w).getD row))
      (hcommits : commits workflowId seq w' = commits workflowId seq w + 1)

theorem Effect.of_store_eq {e : Eff} (h : w'.store = w.store) :
    Effect workflowId seq e w w' := .quiet ⟨by simp [stepRow, h], by simp [commits, h]⟩

theorem effect_of_own {e : Eff} {r : Answer e} (he : Own workflowId seq e)
    (h : (provider X s).handle e w r w') : Effect workflowId seq e w w' := by
  cases he with
  | utcNow => exact .of_store_eq (by rw [h.2])
  | sleep d => exact .of_store_eq (congrArg World.store h)
  | selectOperation => exact .of_store_eq h.1.2
  | begin => exact .of_store_eq h.1.2
  | body => exact .of_store_eq h.1
  | insertOperation row => exact .of_store_eq h.1.2
  | rollback => exact .of_store_eq h.1.2
  | selectStatus => exact .of_store_eq h.1.2
  | @commit writes row houtput =>
    obtain ⟨⟨-, hstore⟩ | ⟨-, hstore⟩, hclock⟩ := h
    · have hw' : w' = ⟨w.store.applied workflowId seq writes row, w.clock⟩ := by
        rw [← hstore, ← hclock]
      subst hw'
      exact .applied writes row houtput rfl (AList.lookup_insertNew_self _ _ _)
        commits_applied
    · exact .of_store_eq hstore
  | @insertFailure row herror =>
    obtain ⟨⟨db₁, hinsert, hstore, -⟩ | ⟨-, hstore⟩, -⟩ := h
    · have hlookup : stepRow workflowId seq w' = some ((stepRow workflowId seq w).getD row) := by
        rw [stepRow, hstore, insertOperation_ok hinsert]
        exact AList.lookup_insertNew_self _ _ _
      have hcommits : commits workflowId seq w' = commits workflowId seq w := by
        rw [commits, hstore, insertOperation_ok hinsert, commits]
      cases hrow : stepRow workflowId seq w with
      | none => exact .failure row hrow (by rw [hlookup, hrow, Option.getD_none]) herror hcommits
      | some old => exact .quiet ⟨by rw [hlookup, hrow, Option.getD_some], hcommits⟩
    · exact .of_store_eq hstore

/-! ## At most once -/

/-- A step that commits writes of the body finds no row. -/
def CommitsFindNoRow (workflowId : String) (seq : Int) (a : Pool Execution (World Db))
    (_ : Pool.Happens Execution Seen) (b : Pool Execution (World Db)) : Prop :=
  commits workflowId seq a.world < commits workflowId seq b.world →
    stepRow workflowId seq a.world = none

/-- At most one commit, and none without a row. -/
def Once (workflowId : String) (seq : Int) (w : World Db) : Prop :=
  commits workflowId seq w ≤ 1 ∧ (stepRow workflowId seq w = none → commits workflowId seq w = 0)

theorem Once.others (h : Once workflowId seq w) (ho : Others workflowId seq w w') :
    Once workflowId seq w' := by
  rw [Once, ho.row, ho.commits]
  exact h

/-- **An effect that commits only where no row is keeps the writes committed at most once.** -/
theorem Once.effect {e : Eff} (h : Once workflowId seq w) (he : Effect workflowId seq e w w')
    (hfresh : commits workflowId seq w < commits workflowId seq w' →
      stepRow workflowId seq w = none) :
    Once workflowId seq w' := by
  cases he with
  | quiet ho => exact h.others ho
  | failure row _ hrow _ hcommits =>
    rw [Once, hcommits, hrow]
    exact ⟨h.1, nofun⟩
  | applied writes row _ _ hrow hcommits =>
    have hzero : commits workflowId seq w = 0 := h.2 (hfresh (by omega))
    rw [Once, hcommits, hrow, hzero]
    exact ⟨le_rfl, nofun⟩

theorem keeps_once : Pool.Keeps (executions X s workflowId seq) (CommitsFindNoRow workflowId seq)
    (Once workflowId seq) (fun t _ => t.Calls (Own workflowId seq)) where
  start := by
    rintro t w ⟨startedAtMs, opts, rfl⟩ -
    exact calls_runTransactionStep
  env := fun ho h => ⟨h.others ho, fun _ ht => ht⟩
  run := by
    intro pre post new t t' w w' l hrun hfresh h ht
    -- An execution starts no other.
    obtain ⟨hstep, rfl⟩ : Proc.Step (provider X s).handle t w l t' w' ∧ new = [] := by
      cases l <;> exact hrun
    obtain ⟨hown, ht'⟩ := ht.step hstep
    refine ⟨?_, ht', by simp, fun u _ hu => hu⟩
    cases l with
    | none =>
      rw [hstep.silent]
      exact h
    | some ev =>
      obtain ⟨-, -, hhandle⟩ := hstep.event
      exact h.effect (effect_of_own (hown ev rfl) hhandle) hfresh

/-- **The writes of a transactional step are committed at most once**, in every run in which each
commit finds no row for the step. -/
theorem at_most_once {w₀ : World Db} (h₀ : commits workflowId seq w₀ = 0)
    {c : Pool Execution (World Db)}
    (hr : Pool.Run (executions X s workflowId seq) (CommitsFindNoRow workflowId seq) ⟨w₀, []⟩ c) :
    commits workflowId seq c.world ≤ 1 := by
  have hstart : Once workflowId seq w₀ := ⟨by omega, fun _ => h₀⟩
  exact (hr.invariant keeps_once hstart (by simp)).1.1

end

/-! ## Runs -/

variable {workflowId : String} {row : OperationRow} {writes : List String}

/-- The commit takes effect; the connection may be lost before the answer. -/
theorem handle_commit {X : TextCodec} {s : Serializer} {seq : Int} {r : Except Error Unit}
    (hr : r = .ok () ∨ ∃ m, r = .error (.db (.io m))) :
    (provider X s).handle (.sql (.commit workflowId seq writes row)) w r
      ⟨w.store.applied workflowId seq writes row, w.clock⟩ := ⟨.inl ⟨hr, rfl⟩, rfl⟩

/-- One workflow, running, that has recorded nothing. -/
def bank : World Db where
  store := { workflowStatus := AList.singleton "tx-1" (insertedRow noText .json
    (WorkflowStatus.new ⟨0⟩ "tx-1" "transfer" .null .pending "local" "") NIL_MARKER) }
  clock := ⟨0⟩

/-- The writes of the step's body. -/
def transfer : List String := ["UPDATE accounts SET balance = balance + 30 WHERE name = 'bob'"]

/-- Two executions find no row; one commits, and the other, which ran the body too, is refused its
checkpoint. -/
theorem at_most_once_transfer : ∃ c,
    Pool.Run (executions noText .json "tx-1" 0) (CommitsFindNoRow "tx-1" 0) ⟨bank, []⟩ c ∧
      commits "tx-1" 0 bank = 0 ∧ c.world.store.application = [⟨"tx-1", 0, transfer⟩] ∧
      commits "tx-1" 0 c.world ≤ 1 := by
  have hsame {a e b} (h : commits "tx-1" 0 b.world = commits "tx-1" 0 a.world) :
      CommitsFindNoRow "tx-1" 0 a e b := fun hlt => by omega
  have hstart : Pool.Run (executions noText .json "tx-1" 0) (CommitsFindNoRow "tx-1" 0)
      ⟨bank, []⟩ _ := (Pool.Run.refl _).enter ⟨0, { name := "transfer" }, rfl⟩ (hsame rfl)
  have hboth := hstart |>.act 0 rfl _ ⟨⟨.inr rfl, rfl⟩, rfl⟩ (hsame rfl)
    |>.enter ⟨0, { name := "transfer" }, rfl⟩ (hsame rfl)
    |>.act 0 rfl _ ⟨⟨.inr rfl, rfl⟩, rfl⟩ (hsame rfl)
  have hcommitted := hboth
    |>.turn 1 rfl (hsame rfl) |>.turn 1 rfl (hsame rfl)
    |>.act 1 rfl _ ⟨⟨.inr rfl, rfl⟩, rfl⟩ (hsame rfl)
    |>.act 1 rfl (.ok (.null, transfer)) ⟨rfl, rfl⟩ (hsame rfl)
    |>.act 1 rfl _ ⟨rfl, rfl⟩ (hsame rfl)
    |>.act 1 rfl _ ⟨⟨.inr ⟨rfl, rfl⟩, rfl⟩, rfl⟩ (hsame rfl)
    |>.act 1 rfl _ (handle_commit (.inl rfl)) fun _ => rfl
  have hrefused := hcommitted
    |>.turn 0 rfl (hsame rfl) |>.turn 0 rfl (hsame rfl)
    |>.act 0 rfl _ ⟨⟨.inr rfl, rfl⟩, rfl⟩ (hsame rfl)
    |>.act 0 rfl (.ok (.null, transfer)) ⟨rfl, rfl⟩ (hsame rfl)
    |>.act 0 rfl _ ⟨rfl, rfl⟩ (hsame rfl)
    |>.act 0 rfl _ ⟨⟨.inr ⟨rfl, rfl⟩, rfl⟩, rfl⟩ (hsame rfl)
  exact ⟨_, hrefused, rfl, rfl, at_most_once rfl hrefused⟩

/-- **One execution, one lost answer, two commits**: the commit took effect, the connection failed,
and the inner loop runs the body and commits again. -/
theorem committed_twice : ∃ c,
    Pool.Run (executions noText .json "tx-1" 0) (fun _ _ _ => True) ⟨bank, []⟩ c ∧
      commits "tx-1" 0 bank = 0 ∧
      c.world.store.application = [⟨"tx-1", 0, transfer⟩, ⟨"tx-1", 0, transfer⟩] := by
  have hstart : Pool.Run (executions noText .json "tx-1" 0) (fun _ _ _ => True) ⟨bank, []⟩ _ :=
    (Pool.Run.refl _).enter ⟨0, { name := "transfer" }, rfl⟩ trivial
  have hlost := hstart
    |>.act 0 rfl _ ⟨⟨.inr rfl, rfl⟩, rfl⟩ trivial |>.turn 0 rfl trivial |>.turn 0 rfl trivial
    |>.act 0 rfl _ ⟨⟨.inr rfl, rfl⟩, rfl⟩ trivial
    |>.act 0 rfl (.ok (.null, transfer)) ⟨rfl, rfl⟩ trivial
    |>.act 0 rfl _ ⟨rfl, rfl⟩ trivial |>.act 0 rfl _ ⟨⟨.inr ⟨rfl, rfl⟩, rfl⟩, rfl⟩ trivial
    |>.act 0 rfl (.error (.db (.io "connection reset by peer"))) (handle_commit (.inr ⟨_, rfl⟩))
      trivial
  have hagain := hlost
    |>.act 0 rfl _ ⟨⟨.inr rfl, rfl⟩, rfl⟩ trivial |>.act 0 rfl () rfl trivial
    |>.turn 0 rfl trivial |>.act 0 rfl _ ⟨⟨.inr rfl, rfl⟩, rfl⟩ trivial
    |>.act 0 rfl (.ok (.null, transfer)) ⟨rfl, rfl⟩ trivial
    |>.act 0 rfl _ ⟨rfl, rfl⟩ trivial |>.act 0 rfl _ ⟨⟨.inr ⟨rfl, rfl⟩, rfl⟩, rfl⟩ trivial
    |>.act 0 rfl _ (handle_commit (.inl rfl)) trivial
  exact ⟨_, hagain, rfl, rfl⟩

end Durare.Sqlite
