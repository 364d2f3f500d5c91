import Durare.Context.Sqlite
import Durare.Engine.Runtime

/-!
# Engine/Undecodable — stored text that the reader cannot decode

A SQLite row carries the name of the format its texts were written in, and a reader may meet a
format it does not know, or a text that is broken.  The row conversion takes such an input for
`null` and such an output for an absent one, without a word to the caller; what stands between the
`null` and a workflow body is only the deserialization in `erase`, and between the absent output and
the caller of `result` the one in `terminal_to_result`.

So `undecodable_refused_iff`: the replaced value is refused exactly at the types that do not accept
`null`.  `null_for_unknown_format` is a row where it is not.
-/

namespace Durare

open Verb

/-! ## Typed handlers -/

/-- `erase`: a typed body as a registered handler.  The input is deserialized before the body
starts, and what the body returns is serialized. -/
def WorkflowFn.erase (I O : Type) [Serde I] [Serde O]
    (f : DurableContext → I → Program Act Act.Outcome (Caught (Except Error O))) : WorkflowFn :=
  fun ctx json => match (Serde.fromValue json : Except String I) with
    | .error e => .done (.returned (.error (.serde e)))
    | .ok input => (f ctx input).map fun
        | .panicked payload => .panicked payload
        | .returned (.error e) => .returned (.error e)
        | .returned (.ok output) => .returned ((Serde.toValue output).mapError .serde)

/-- A type that `null` deserializes to. -/
def AcceptsNull (T : Type) [Serde T] : Prop := ∃ v : T, Serde.fromValue Value.null = .ok v

/-- A handler with input type `I` fails on `input` before its body starts, whatever the body is. -/
def Refuses (I O : Type) [Serde I] [Serde O] (input : Value) : Prop :=
  ∀ f, ∃ e, ∀ ctx, WorkflowFn.erase I O f ctx input = .done (.returned (.error e))

theorem acceptsNull_iff {T : Type} [Serde T] :
    ¬AcceptsNull T ↔ ∃ e, (Serde.fromValue Value.null : Except String T) = .error e := by
  rw [AcceptsNull]
  cases (Serde.fromValue Value.null : Except String T) with
  | error e => simp
  | ok v => simp

/-- **A `null` is refused at the types that do not accept it, and at no others.** -/
theorem refuses_null_iff {I O : Type} [Serde I] [Serde O] :
    Refuses I O .null ↔ ¬AcceptsNull I := by
  rw [acceptsNull_iff]
  constructor
  · intro h
    -- A body that panics at once shows that it has been entered.
    obtain ⟨e, he⟩ := h fun _ _ => .done (.panicked none)
    have hrun := he ⟨"", {}, ⟨[], [], "", ""⟩⟩
    cases hread : (Serde.fromValue Value.null : Except String I) with
    | error e => exact ⟨e, rfl⟩
    | ok v =>
      rw [WorkflowFn.erase, hread] at hrun
      cases hrun
  · rintro ⟨e, he⟩ f
    refine ⟨.serde e, fun ctx => ?_⟩
    rw [WorkflowFn.erase, he]

namespace Sqlite

variable {X : TextCodec} {s : Serializer} {db : Db} {id : String} {row : StatusRow}

/-! ## The row conversion -/

theorem input_rowToStatus {e : Error} (now : DateTime)
    (h : decodeInput X s row.serialization row.inputs = .error e) :
    (rowToStatus X s now row).input = .null := by
  rw [rowToStatus, h]
  rfl

theorem output_rowToStatus {text : String} {e : Error} (now : DateTime)
    (houtput : row.output = some text) (h : decode X s row.serialization text = .error e) :
    (rowToStatus X s now row).output = none := by
  rw [rowToStatus, houtput, decodeOpt, h]
  rfl

theorem claimRow_idem (now : DateTime) (req : DequeueRequest) (row : StatusRow) :
    claimRow now req (claimRow now req row) = claimRow now req row := by
  simp [claimRow, Option.or_assoc]

/-- A claimed row has the texts it had. -/
theorem claimed_rowToStatus
    (hkeyed : ∀ k r, db.workflowStatus.lookup k = some r → r.workflowUuid = k)
    (hrow : db.workflowStatus.lookup id = some row) {now : DateTime} {req : DequeueRequest}
    {rows : List WorkflowStatus} (h : (dequeueWorkflows X s now req db).1 = .ok rows)
    {st : WorkflowStatus} (hst : st ∈ rows) (hid : st.id = id) :
    st = rowToStatus X s now (claimRow now req row) := by
  cases h
  obtain ⟨k, hk, hst⟩ := List.mem_filterMap.mp hst
  rw [AList.lookup_foldl_modify (claimRow_idem now req) k, if_pos hk, Option.map_map] at hst
  obtain ⟨r, hr, rfl⟩ := Option.map_eq_some_iff.mp hst
  have hkid : k = id := (hkeyed k r hr).symm.trans hid
  subst hkid
  rw [hrow] at hr
  cases hr
  rfl

/-! ## The polling handle -/

/-- The row behind a handle stays as it is. -/
def RowStays (id : String) (w w' : World Db) : Prop :=
  w'.store.workflowStatus.lookup id = w.store.workflowStatus.lookup id

/-- A handle that polls a row that stays. -/
def reading (X : TextCodec) (s : Serializer) (id : String) :
    Proc.Judge Eff Answer (World Db) where
  handle := (provider X s).handle
  rely := RowStays id
  guar _ _ _ _ := True

variable {w w' : World Db} {c : CtxState} {text : String} {e : Error} {O : Type} [Serde O]

theorem handle_getWorkflowStatus (hrow : w.store.workflowStatus.lookup id = some row)
    {r : Except Error (Option WorkflowStatus)} :
    (provider X s).handle (.provider (.getWorkflowStatus id)) w r w' ↔
      r = .ok (some (rowToStatus X s w.clock row)) ∧ w' = w := by
  have hread : ∀ uuid, (provider X s).call (.getWorkflowStatus id) w.clock uuid w.store =
      (.ok ((w.store.workflowStatus.lookup id).map (rowToStatus X s w.clock)), w.store) :=
    fun _ => rfl
  rw [hrow] at hread
  constructor
  · intro h
    obtain ⟨uuid, rfl, rfl⟩ := Provider.handle_provider.mp h
    exact ⟨congrArg Prod.fst (hread uuid),
      congrArg (fun x => World.mk x.2 w.clock) (hread uuid)⟩
  · rintro ⟨rfl, rfl⟩
    exact ⟨"", hread "", rfl⟩

theorem terminalToResult_undecodable (now : DateTime) (hstatus : row.status = .success)
    (houtput : row.output = some text) (hbad : decode X s row.serialization text = .error e) :
    terminalToResult O id (rowToStatus X s now row) =
      (Serde.fromValue Value.null).mapError .serde := by
  have hsuccess : (rowToStatus X s now row).status = .success := hstatus
  rw [terminalToResult, hsuccess, output_rowToStatus now houtput hbad]
  rfl

/-- **The handle returns what `null` deserializes to.** -/
theorem wp_result_undecodable (hrow : w.store.workflowStatus.lookup id = some row)
    (hstatus : row.status = .success) (houtput : row.output = some text)
    (hbad : decode X s row.serialization text = .error e) :
    wp (reading X s id) (result O id)
      (fun r _ _ => r = (Serde.fromValue Value.null).mapError .serde) c w := by
  refine wp_loop (fun _ _ w => w.store.workflowStatus.lookup id = some row) hrow
    fun _ c w hrow => wp_bind (wp_attempt (wp_ask fun w₁ hw₁ r w₂ hr => ⟨trivial, ?_⟩))
  obtain ⟨rfl, rfl⟩ := (handle_getWorkflowStatus (hw₁.trans hrow)).mp hr
  have hterminal : (rowToStatus X s w₂.clock row).status.isTerminal = true := by
    change row.status.isTerminal = true
    rw [hstatus]
    rfl
  rw [after_ok, wp_pure, after_ok]
  dsimp only
  rw [if_pos hterminal, terminalToResult_undecodable w₂.clock hstatus houtput hbad]
  cases (Serde.fromValue Value.null : Except String O) with
  | error e => rfl
  | ok v => rfl

/-- A poll that finds the row terminal returns. -/
theorem runs_result (hrow : w.store.workflowStatus.lookup id = some row)
    (hterminal : row.status.isTerminal = true) :
    ∃ es, Proc.Runs (provider X s).handle (RowStays id) (result O id c) w es
      (terminalToResult O id (rowToStatus X s w.clock row), c) w := by
  have hread : (provider X s).handle (.provider (.getWorkflowStatus id)) w
      (.ok (some (rowToStatus X s w.clock row))) w :=
    (handle_getWorkflowStatus hrow).mpr ⟨rfl, rfl⟩
  refine ⟨[⟨_, w, _, w⟩], .unfold (.call hread ?_)⟩
  change Proc.Runs _ _ ((Proc.bind ((if row.status.isTerminal = true then
    ofExcept (terminalToResult O id (rowToStatus X s w.clock row)) >>= fun r => pure (.inr r)
    else result.again O : Verb (Unit ⊕ O)) c) turn).bind (Proc.again _ .ret)) _ _ _ _
  rw [if_pos hterminal]
  cases terminalToResult O id (rowToStatus X s w.clock row) with
  | error e => exact .ret
  | ok v => exact .ret

/-- **The handle fails at the types that do not accept `null`, and at no others.** -/
theorem result_refuses_iff (hrow : w.store.workflowStatus.lookup id = some row)
    (hstatus : row.status = .success) (houtput : row.output = some text)
    (hbad : decode X s row.serialization text = .error e) :
    (∀ es r w', Proc.Runs (provider X s).handle (RowStays id) (result O id c) w es r w' →
      ∃ e, r.1 = .error e) ↔ ¬AcceptsNull O := by
  have hterminal : row.status.isTerminal = true := hstatus ▸ rfl
  rw [acceptsNull_iff]
  constructor
  · intro h
    obtain ⟨es, hrun⟩ := runs_result (X := X) (s := s) (O := O) (c := c) hrow hterminal
    obtain ⟨e, he⟩ := h es _ _ hrun
    rw [terminalToResult_undecodable w.clock hstatus houtput hbad] at he
    cases hnull : (Serde.fromValue Value.null : Except String O) with
    | error e => exact ⟨e, rfl⟩
    | ok v =>
      rw [hnull] at he
      cases he
  · rintro ⟨e, hnull⟩ es r w' hrun
    obtain ⟨-, w₀, -, hr⟩ := Proc.wp_runs (J := reading X s id) (fun _ => rfl)
      (fun h h' => h'.trans h) hrun
      ⟨w, rfl, wp_result_undecodable (O := O) hrow hstatus houtput hbad⟩
    rw [hr, hnull]
    exact ⟨_, rfl⟩

/-! ## The whole way -/

/-- **An undecodable input is refused, and an undecodable output reported, exactly at the types
that do not accept `null`**: by the run of a row that `get_workflow_status` or `dequeue_workflows`
hands out, and by a polling handle of a `SUCCESS` row, which always returns. -/
theorem undecodable_refused_iff
    (hkeyed : ∀ k r, db.workflowStatus.lookup k = some r → r.workflowUuid = k)
    (hrow : db.workflowStatus.lookup id = some row) (now : DateTime) :
    (∀ e, decodeInput X s row.serialization row.inputs = .error e →
      ∀ (I O : Type) [Serde I] [Serde O],
        ((∀ st, (getWorkflowStatus X s now id db).1 = .ok (some st) → Refuses I O st.input) ↔
          ¬AcceptsNull I) ∧
        ∀ req rows, (dequeueWorkflows X s now req db).1 = .ok rows →
          ∀ st ∈ rows, st.id = id → (Refuses I O st.input ↔ ¬AcceptsNull I)) ∧
    ∀ text e, row.status = .success → row.output = some text →
      decode X s row.serialization text = .error e → ∀ (O : Type) [Serde O] (c : CtxState),
        (∃ es r w', Proc.Runs (provider X s).handle (RowStays id) (result O id c) ⟨db, now⟩ es
          r w') ∧
        ((∀ es r w', Proc.Runs (provider X s).handle (RowStays id) (result O id c) ⟨db, now⟩ es
          r w' → ∃ e, r.1 = .error e) ↔ ¬AcceptsNull O) := by
  refine ⟨fun e hbad I O _ _ => ⟨?_, ?_⟩, ?_⟩
  · have hread : (getWorkflowStatus X s now id db).1 = .ok (some (rowToStatus X s now row)) := by
      rw [getWorkflowStatus, hrow]
      rfl
    rw [← refuses_null_iff (O := O), ← input_rowToStatus now hbad]
    constructor
    · exact fun h => h _ hread
    · intro h st hst
      rw [hread] at hst
      cases hst
      exact h
  · intro req rows h st hst hid
    have hclaimed : decodeInput X s (claimRow now req row).serialization
        (claimRow now req row).inputs = .error e := hbad
    rw [claimed_rowToStatus hkeyed hrow h hst hid, input_rowToStatus now hclaimed]
    exact refuses_null_iff
  · intro text e hstatus houtput hbad O _ c
    obtain ⟨es, hrun⟩ := runs_result (X := X) (s := s) (O := O) (w := ⟨db, now⟩) (c := c) hrow
      (hstatus ▸ rfl)
    exact ⟨⟨es, _, _, hrun⟩, result_refuses_iff hrow hstatus houtput hbad⟩

/-- A row written in a format of another program. -/
def gzippedRow (id : String) (status : Status) : StatusRow where
  workflowUuid := id
  name := "f"
  inputs := "H4sI"
  output := some "H4sI"
  status := status
  executorId := ""
  applicationVersion := ""
  queueName := some "q"
  queuePartitionKey := none
  priority := 0
  deduplicationId := none
  parentWorkflowId := none
  workflowTimeoutMs := none
  workflowDeadlineEpochMs := none
  delayUntilEpochMs := none
  authenticatedUser := none
  assumedRole := none
  authenticatedRoles := none
  className := none
  configName := none
  serialization := some "gzip_json"
  createdAt := 0
  updatedAt := 0

/-- One such row that waits on a queue, and one that has succeeded. -/
def gzippedDb : Db where
  workflowStatus := AList.insert "waiting" (gzippedRow "waiting" .enqueued)
    (AList.insert "done" (gzippedRow "done" .success) ∅)

theorem lookup_done : gzippedDb.workflowStatus.lookup "done" = some (gzippedRow "done" .success) :=
  rfl

theorem undecodable_format (text : String) :
    ∃ e, decode noText .json (some "gzip_json") text = .error e := ⟨_, rfl⟩

theorem undecodable_refused_iff_nat :
    (∀ st, (getWorkflowStatus noText .json ⟨0⟩ "done" gzippedDb).1 = .ok (some st) →
      Refuses Nat Nat st.input) ∧
    ∀ es r w', Proc.Runs (provider noText .json).handle (RowStays "done") (result Nat "done" {})
      ⟨gzippedDb, ⟨0⟩⟩ es r w' → ∃ e, r.1 = .error e := by
  have hkeyed : ∀ k r, gzippedDb.workflowStatus.lookup k = some r → r.workflowUuid = k := by
    refine AList.forall_lookup_insert (AList.forall_lookup_insert ?_ rfl) rfl
    intro k r hr
    cases hr
  have hrefused := undecodable_refused_iff (X := noText) (s := .json) hkeyed lookup_done ⟨0⟩
  have hnat : ¬AcceptsNull Nat := by
    rintro ⟨n, hn⟩
    cases hn
  obtain ⟨e, he⟩ := undecodable_format "H4sI"
  have hinput : decodeInput noText .json (some "gzip_json") "H4sI" = .error e := by
    rw [decodeInput, he]
    rfl
  exact ⟨(hrefused.1 e hinput Nat Nat).1.mpr hnat, (hrefused.2 _ e rfl rfl he Nat {}).2.mpr hnat⟩

/-- A claim of one row. -/
def claimFirst : DequeueRequest := ⟨"q", "local", "", none, 1, none, none, none⟩

/-- **A body runs on an input that nobody gave it, and a handle returns an output that nobody
wrote.**  The stored texts cannot be read; `dequeue_workflows` hands the row out with the input
`null`, a body that takes an `Option` starts with `None`, and `result` at an `Option` returns
`None`. -/
theorem null_for_unknown_format :
    (∃ e, decodeInput noText .json (some "gzip_json") "H4sI" = .error e) ∧
    (∃ st, (dequeueWorkflows noText .json ⟨0⟩ claimFirst gzippedDb).1 = .ok [st] ∧
      (Serde.fromValue st.input : Except String (Option Nat)) = .ok none ∧
      ¬Refuses (Option Nat) (Option Nat) st.input) ∧
    ∃ es, Proc.Runs (provider noText .json).handle (RowStays "done")
      (result (Option Nat) "done" {}) ⟨gzippedDb, ⟨0⟩⟩ es (.ok none, {}) ⟨gzippedDb, ⟨0⟩⟩ := by
  refine ⟨⟨_, rfl⟩, ⟨rowToStatus noText .json ⟨0⟩
    (claimRow ⟨0⟩ claimFirst (gzippedRow "waiting" .enqueued)), ?_, rfl, ?_⟩, ?_⟩
  · have hrows : gzippedDb.workflowStatus.values.filter
        (claimable claimFirst (isLatest claimFirst gzippedDb)) =
        [gzippedRow "waiting" .enqueued] := rfl
    have hids : claimIds ⟨0⟩ claimFirst gzippedDb = ["waiting"] := by
      rw [claimIds, hrows, List.mergeSort_singleton]
      rfl
    rw [dequeueWorkflows, hids]
    rfl
  · exact fun h => refuses_null_iff.mp h ⟨none, rfl⟩
  · obtain ⟨es, hrun⟩ := runs_result (X := noText) (s := .json) (w := ⟨gzippedDb, ⟨0⟩⟩)
      (O := Option Nat) (c := {}) lookup_done rfl
    exact ⟨es, hrun⟩

end Sqlite

end Durare
