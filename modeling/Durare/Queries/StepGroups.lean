import Durare.Queries.WorkflowGroups

/-!
# Queries/StepGroups — groups of steps in two backends

SQLite derives the status of a step from its error.  The in-memory backend records errors as well,
but counts every step as a success.  So a failed step is counted as one where it should not be, or
under another status, whenever its status is grouped by or filtered on (`FailuresAlike`).

`aggregates_agree_iff` has both kinds of groups, of workflows and of steps.
-/

namespace Durare

open List Option

/-! ## Groups of steps -/

namespace Memory

section

variable (q : StepAggregateQuery) (g : Inner)

/-- The status the SQL backends derive for a step. -/
def derivedStatus (row : StepRow) : String := if row.error.isNone then "SUCCESS" else "ERROR"

/-- The filter lets a status pass. -/
def Allowed (status : String) : Prop := anyOf q.status status = true

/-- The step is in the store and passes the filters, but for the one on its status. -/
def Candidate (row : StepRow) : Prop :=
  ∃ key, g.steps.lookup key = some row ∧ stepAggPasses { q with status := [] } key.1 row = true

/-- How long a step took. -/
def stepLength (row : StepRow) : Option Int := Sqlite.difference row.completedAtMs row.startedAtMs

/-- **A failed step makes no difference**: its status is not allowed whatever it is; or allowed
whatever it is, and not grouped by; or, if only successful steps are counted, how many is not asked
for and there is one in its group. -/
def FailuresAlike : Prop :=
  ∀ row, Candidate q g row → row.error.isSome = true → (¬Allowed q "SUCCESS" ∧ ¬Allowed q "ERROR") ∨
    (Allowed q "SUCCESS" ∧ Allowed q "ERROR" ∧ q.byStatus = false) ∨
    (Allowed q "SUCCESS" ∧ ¬Allowed q "ERROR" ∧ q.selectCount = false ∧
      ∃ row', Candidate q g row' ∧ row'.error = none ∧ stepAggKey q row' = stepAggKey q row)

/-- No duration is above the 64-bit range, and none that is counted in memory is larger, wrapped
around, than one of its group that is counted by the database. -/
structure DurationsFit : Prop where
  bounded : ∀ row d, Candidate q g row → Allowed q (derivedStatus row) → stepLength row = some d →
    d ≤ I64_MAX
  covered : ∀ row d, Candidate q g row → Allowed q "SUCCESS" → stepLength row = some d →
    ∃ row' d', Candidate q g row' ∧ Allowed q (derivedStatus row') ∧
      stepAggKey q row' = stepAggKey q row ∧ stepLength row' = some d' ∧ i64 d ≤ d'

end

variable {q : StepAggregateQuery} {g : Inner} {row : StepRow}

/-- The key of a group of steps that count as `status`. -/
def stepKeyAs (q : StepAggregateQuery) (status : String) (row : StepRow) :
    List (String × Option String) :=
  (q.groupExprs.map fun d => (d.key, match d with
    | .functionName => some row.name
    | .status => some status)) ++ bucketEntry q.bucket row.completedAtMs

theorem stepAggKey_eq : stepAggKey q row = stepKeyAs q "SUCCESS" row := by
  unfold stepAggKey stepKeyAs
  refine congrArg (· ++ _) (map_congr_left fun d _ => ?_)
  cases d <;> rfl

theorem stepKeyAs_congr (h : q.byStatus = false) (status status' : String) :
    stepKeyAs q status row = stepKeyAs q status' row := by
  unfold stepKeyAs StepAggregateQuery.groupExprs
  rw [h]
  cases q.byFunctionName <;> rfl

theorem stepKeyAs_inj (h : q.byStatus = true) {status status' : String} {row' : StepRow}
    (heq : stepKeyAs q status row = stepKeyAs q status' row') : status = status' := by
  unfold stepKeyAs StepAggregateQuery.groupExprs at heq
  rw [h] at heq
  cases hname : q.byFunctionName <;> simp [hname] at heq
  · exact heq.1
  · exact heq.2.1

theorem keys_stepKeyAs (q : StepAggregateQuery) (status : String) (row : StepRow) :
    (stepKeyAs q status row).map Prod.fst = q.groupExprs.map StepDimension.key ++
      if q.bucket.isSome then ["time_bucket"] else [] := by
  rw [stepKeyAs, map_append, List.map_map]
  cases q.bucket <;> rfl

theorem nodup_stepKeyAs (q : StepAggregateQuery) (status : String) (row : StepRow) :
    ((stepKeyAs q status row).map Prod.fst).Nodup := by
  rw [keys_stepKeyAs]
  unfold StepAggregateQuery.groupExprs
  cases q.byFunctionName <;> cases q.byStatus <;> cases q.bucket <;> simp [StepDimension.key]

/-- The aggregate of a group of steps. -/
def stepAggregate (q : StepAggregateQuery) (key : List (String × Option String))
    (rows : List StepRow) : StepAggregate :=
  toStepAggregate q key (rows.foldl addStep (0, none))

theorem stepDuration_eq (row : StepRow) : stepDuration row = (stepLength row).map i64 := by
  unfold stepDuration stepLength Sqlite.difference
  cases row.startedAtMs <;> cases row.completedAtMs <;> rfl

theorem foldl_addStep (rows : List StepRow) : rows.foldl addStep (0, none) =
    ((rows.length : Int), ((rows.filterMap stepLength).map i64).max?) := by
  have hfold (acc : Int × Option Int) : rows.foldl addStep acc =
      (acc.1 + rows.length, rows.foldl (fun best row =>
        best.merge max (stepDuration row)) acc.2) := by
    induction rows generalizing acc with
    | nil => simp
    | cons row rows ih =>
      rw [foldl_cons, ih, addStep, keepMax_eq_merge, foldl_cons, length_cons]
      refine Prod.ext ?_ rfl
      omega
  have hdurations : rows.filterMap stepDuration = (rows.filterMap stepLength).map i64 := by
    rw [map_filterMap]
    exact filterMap_congr fun row _ => stepDuration_eq row
  rw [hfold, Grouping.foldl_merge_max, hdurations]
  simp

theorem getStepAggregates_perm (q : StepAggregateQuery) (g : Inner) (hlimit : q.limit = none) :
    ∃ out, (getStepAggregates q g).1 = .ok out ∧
      out.Perm ((Grouping.groups (stepAggKey q) (countedSteps q g)).map fun grp =>
        stepAggregate q grp.1 grp.2) := by
  refine ⟨_, rfl, ?_⟩
  have hperm := (Grouping.accumulate_perm (stepAggKey q) addStep (0, none) (countedSteps q g)).map
    fun e => toStepAggregate q e.1 e.2
  rw [List.map_map, List.map_map] at hperm
  rw [hlimit]
  exact (mergeSort_perm _ _).trans hperm

/-- The filters but the one on the status. -/
def stepBase (q : StepAggregateQuery) (workflowId : String) (row : StepRow) : Bool :=
  stepAggPasses { q with status := [] } workflowId row

theorem stepAggPasses_eq (workflowId : String) (row : StepRow) :
    stepAggPasses q workflowId row = (anyOf q.status "SUCCESS" && stepBase q workflowId row) := by
  simp only [stepBase, stepAggPasses, stepStatus, Bool.and_assoc]
  rfl

end Memory

namespace Sqlite

variable {q : StepAggregateQuery} {db : Db} {row : Memory.StepRow} {r : OperationRow}

theorem stepStatus_eq (h : StepMirrors row r) : stepStatus r = Memory.derivedStatus row := by
  have hfailed := h.failed
  unfold stepStatus Memory.derivedStatus
  cases hr : r.error <;> cases hrow : row.error <;> simp_all

theorem stepAggPasses_eq (h : StepMirrors row r) (hpre : q.workflowIdPrefix = none)
    (workflowId : String) : stepAggPasses q workflowId r =
      (Memory.anyOf q.status (Memory.derivedStatus row) && Memory.stepBase q workflowId row) := by
  simp only [Memory.stepBase, stepAggPasses, Memory.stepAggPasses, stepStatus_eq h, h.name,
    h.completedAtMs, hpre, Bool.and_assoc]
  rfl

/-- The key of the group of a row, as the entries of its map. -/
def stepRowKey (q : StepAggregateQuery) : OperationRow → List (String × Option String) :=
  textKey (q.groupExprs.map StepDimension.key) q.bucket ∘ stepAggKey q

theorem stepRowKey_eq (h : StepMirrors row r) :
    stepRowKey q r = Memory.stepKeyAs q (Memory.derivedStatus row) row := by
  unfold stepRowKey textKey stepAggKey Memory.stepKeyAs
  rw [Function.comp_apply, h.completedAtMs, zip_map']
  have hcolumns : (q.groupExprs.map fun d => (d.key, stepColumn r d)) =
      q.groupExprs.map fun d => (d.key, match d with
        | .functionName => some row.name
        | .status => some (Memory.derivedStatus row)) := by
    refine map_congr_left fun d _ => ?_
    cases d
    · rw [stepColumn, h.name]
    · rw [stepColumn, stepStatus_eq h]
  rw [hcolumns]
  cases q.bucket with
  | none => rfl
  | some b => cases row.completedAtMs <;> rfl

/-- The aggregate of a group of steps, by the entries of its map. -/
def stepAggregate (q : StepAggregateQuery) (key : List (String × Option String))
    (rows : List OperationRow) : StepAggregate :=
  { rowToStepAggregate q ([], none) rows with group := .collect key }

theorem stepAggregate_congr {rows rows' : List OperationRow} (h : rows.Perm rows')
    (key : List (String × Option String)) :
    stepAggregate q key rows = stepAggregate q key rows' := by
  unfold stepAggregate rowToStepAggregate readMax
  rw [h.length_eq, max?_congr (h.filterMap _)]

theorem mem_getStepAggregates (hlimit : q.limit = none)
    (hgrouped : ¬(q.groupExprs = [] ∧ q.bucket = none)) : ∃ out,
    (getStepAggregates q db).1 = .ok out ∧ ∀ a, a ∈ out ↔
      a ∈ (Grouping.groups (stepRowKey q) (countedSteps q db)).map fun grp =>
        stepAggregate q grp.1 grp.2 := by
  have hrow (k : GroupKey) (rows : List OperationRow) : rowToStepAggregate q k rows =
      stepAggregate q (textKey (q.groupExprs.map StepDimension.key) q.bucket k) rows := by
    unfold stepAggregate rowToStepAggregate
    rw [groupOf_eq]
  refine ⟨(Grouping.groups (stepAggKey q) (countedSteps q db)).map fun grp =>
    rowToStepAggregate q grp.1 grp.2, ?_, fun a => ?_⟩
  · unfold getStepAggregates
    rw [if_neg (by simpa using hgrouped), hlimit]
    rfl
  · simp only [hrow]
    refine Grouping.mem_map_groups_comp fun r _ r' _ heq => ?_
    refine textKey_injective (by simp [stepAggKey]) (by simp [stepAggKey]) (fun hnone => ?_) heq
    unfold stepAggKey
    rw [hnone]
    rfl

end Sqlite

/-! ## Steps side by side -/

/-- A query the engine accepts, with no limit and no prefix. -/
structure StepAggregateQuery.Comparable (q : StepAggregateQuery) : Prop where
  grouped : q.noGrouping = false
  selects : q.noSelect = false
  unlimited : q.limit = none
  unprefixed : q.workflowIdPrefix = none

/-- **Both backends answer, with the same groups of steps.** -/
def StepsAgree (q : StepAggregateQuery) (g : Memory.Inner) (db : Sqlite.Db) : Prop :=
  ∃ out out', (Memory.getStepAggregates q g).1 = .ok out ∧
    (Sqlite.getStepAggregates q db).1 = .ok out' ∧ ∀ a, a ∈ out ↔ a ∈ out'

/-- The steps of a store and of a database, in pairs. -/
structure StepPairs (g : Memory.Inner) (db : Sqlite.Db)
    (pairs : List ((String × Int) × Memory.StepRow × OperationRow)) : Prop where
  left : g.steps.entries = pairs.map fun p => ⟨p.1, p.2.1⟩
  right : db.operationOutputs.entries.Perm (pairs.map fun p => ⟨p.1, p.2.2⟩)
  same : ∀ p ∈ pairs, StepMirrors p.2.1 p.2.2

namespace StepPairs

section

variable (q : StepAggregateQuery) (key : List (String × Option String))
  (pairs : List ((String × Int) × Memory.StepRow × OperationRow))

/-- The steps counted in memory under a key. -/
def inMemory : List ((String × Int) × Memory.StepRow × OperationRow) :=
  pairs.filter fun p => Memory.stepAggPasses q p.1.1 p.2.1 && Memory.stepAggKey q p.2.1 = key

/-- The steps counted by the database under a key. -/
def inDatabase : List ((String × Int) × Memory.StepRow × OperationRow) :=
  pairs.filter fun p => Sqlite.stepAggPasses q p.1.1 p.2.2 && Sqlite.stepRowKey q p.2.2 = key

/-- How long they took. -/
def lengths : List Int := pairs.filterMap fun p => Memory.stepLength p.2.1

end

variable {q : StepAggregateQuery} {g : Memory.Inner} {db : Sqlite.Db}
  {key : List (String × Option String)}
  {pairs : List ((String × Int) × Memory.StepRow × OperationRow)}
  {p : (String × Int) × Memory.StepRow × OperationRow}

theorem members_inMemory (h : StepPairs g db pairs) :
    Grouping.members (Memory.stepAggKey q) (Memory.countedSteps q g) key =
      (inMemory q key pairs).map (·.2.1) := by
  rw [Memory.countedSteps, h.left, List.filter_map, List.map_map, Grouping.members_map,
    Grouping.members, List.filter_filter, inMemory]
  refine congrArg _ (filter_congr fun p _ => ?_)
  rw [Bool.and_comm]
  rfl

theorem members_inDatabase (h : StepPairs g db pairs) :
    (Grouping.members (Sqlite.stepRowKey q) (Sqlite.countedSteps q db) key).Perm
      ((inDatabase q key pairs).map (·.2.2)) := by
  have hcounted : (Sqlite.countedSteps q db).Perm
      ((pairs.filter fun p => Sqlite.stepAggPasses q p.1.1 p.2.2).map (·.2.2)) := by
    refine ((h.right.filter _).map _).trans (List.Perm.of_eq ?_)
    rw [List.filter_map, List.map_map]
    rfl
  refine (Grouping.members_perm hcounted key).trans (List.Perm.of_eq ?_)
  rw [Grouping.members_map, Grouping.members, List.filter_filter, inDatabase]
  refine congrArg _ (filter_congr fun p _ => ?_)
  rw [Bool.and_comm]
  rfl

theorem mem_inMemory : p ∈ inMemory q key pairs ↔
    p ∈ pairs ∧ Memory.Allowed q "SUCCESS" ∧ Memory.stepBase q p.1.1 p.2.1 = true ∧
      Memory.stepAggKey q p.2.1 = key := by
  rw [inMemory, mem_filter, Memory.stepAggPasses_eq, Bool.and_eq_true, Bool.and_eq_true,
    decide_eq_true_iff, and_assoc]
  rfl

theorem mem_inDatabase (h : StepPairs g db pairs) (hpre : q.workflowIdPrefix = none) :
    p ∈ inDatabase q key pairs ↔ p ∈ pairs ∧ Memory.Allowed q (Memory.derivedStatus p.2.1) ∧
        Memory.stepBase q p.1.1 p.2.1 = true ∧
        Memory.stepKeyAs q (Memory.derivedStatus p.2.1) p.2.1 = key := by
  rw [inDatabase, mem_filter]
  refine and_congr_right fun hp => ?_
  rw [Sqlite.stepAggPasses_eq (h.same p hp) hpre, Sqlite.stepRowKey_eq (h.same p hp),
    Bool.and_eq_true, Bool.and_eq_true, decide_eq_true_iff, and_assoc]
  rfl

variable {row : Memory.StepRow}

theorem candidate_iff (h : StepPairs g db pairs) :
    Memory.Candidate q g row ↔ ∃ p ∈ pairs, p.2.1 = row ∧ Memory.stepBase q p.1.1 p.2.1 = true := by
  have hlookup (k : String × Int) : g.steps.lookup k = some row ↔
      ∃ p ∈ pairs, p.1 = k ∧ p.2.1 = row := by
    rw [← Option.mem_def, AList.mem_lookup_iff, h.left, List.mem_map]
    refine exists_congr fun p => and_congr_right fun _ => ?_
    rw [Sigma.mk.injEq, heq_eq_eq]
  constructor
  · rintro ⟨k, hk, hbase⟩
    obtain ⟨p, hp, rfl, rfl⟩ := (hlookup k).mp hk
    exact ⟨p, hp, rfl, hbase⟩
  · rintro ⟨p, hp, rfl, hbase⟩
    exact ⟨p.1, (hlookup p.1).mpr ⟨p, hp, rfl, rfl⟩, hbase⟩

/-- A group of steps is shown alike, if it is as large, as far as that is asked for, and its longest
durations agree. -/
theorem stepAggregate_eq_iff (h : StepPairs g db pairs)
    (key : List (String × Option String)) :
    Memory.stepAggregate q key ((inMemory q key pairs).map (·.2.1)) =
        Sqlite.stepAggregate q key ((inDatabase q key pairs).map (·.2.2)) ↔
      (q.selectCount = true → (inMemory q key pairs).length = (inDatabase q key pairs).length) ∧
      (q.selectMaxDurationMs = true → ((lengths (inMemory q key pairs)).map i64).max? =
        Sqlite.readMax (lengths (inDatabase q key pairs))) := by
  have hlengths : ((inDatabase q key pairs).map (·.2.2)).filterMap (fun r =>
      Sqlite.difference r.completedAtEpochMs r.startedAtEpochMs) =
        lengths (inDatabase q key pairs) := by
    rw [filterMap_map, lengths]
    refine filterMap_congr fun p hp => ?_
    have hsame := h.same p (mem_filter.mp hp).1
    simp only [Function.comp_apply, Memory.stepLength, hsame.completedAtMs, hsame.startedAtMs]
  unfold Memory.stepAggregate Sqlite.stepAggregate Sqlite.rowToStepAggregate Memory.toStepAggregate
  rw [Memory.foldl_addStep, hlengths, filterMap_map]
  simp only [StepAggregate.mk.injEq, length_map, true_and]
  refine and_congr ?_ ?_
  · cases q.selectCount <;> simp
  · cases q.selectMaxDurationMs with
    | false => simp
    | true => exact ⟨fun h _ => h, fun h => h rfl⟩

theorem derivedStatus_of_failed (h : row.error.isSome = true) :
    Memory.derivedStatus row = "ERROR" := by
  unfold Memory.derivedStatus
  rw [if_neg (by simpa [isNone_iff_eq_none] using isSome_iff_ne_none.mp h)]

theorem derivedStatus_of_none (h : row.error = none) : Memory.derivedStatus row = "SUCCESS" := by
  unfold Memory.derivedStatus
  rw [h]
  rfl

/-- If failures make no difference, a step the database counts is counted in memory, under the same
key. -/
theorem key_of_failuresAlike (hfail : Memory.FailuresAlike q g)
    (hcandidate : Memory.Candidate q g row)
    (hallowed : Memory.Allowed q (Memory.derivedStatus row)) :
    Memory.Allowed q "SUCCESS" ∧
      Memory.stepKeyAs q (Memory.derivedStatus row) row = Memory.stepAggKey q row := by
  rw [Memory.stepAggKey_eq]
  cases herror : row.error with
  | none =>
    rw [derivedStatus_of_none herror] at hallowed ⊢
    exact ⟨hallowed, rfl⟩
  | some e =>
    have hfailed : row.error.isSome = true := by rw [herror]; rfl
    rw [derivedStatus_of_failed hfailed] at hallowed ⊢
    rcases hfail row hcandidate hfailed with ⟨-, hnot⟩ | ⟨hyes, -, hby⟩ | ⟨-, hnot, -⟩
    · exact absurd hallowed hnot
    · exact ⟨hyes, Memory.stepKeyAs_congr hby _ _⟩
    · exact absurd hallowed hnot

theorem mem_inMemory_of_failuresAlike (h : StepPairs g db pairs) (hpre : q.workflowIdPrefix = none)
    (hfail : Memory.FailuresAlike q g) (hp : p ∈ inDatabase q key pairs) :
    p ∈ inMemory q key pairs := by
  obtain ⟨hmem, hallowed, hbase, hkey⟩ := (mem_inDatabase h hpre).mp hp
  obtain ⟨hyes, hsame⟩ :=
    key_of_failuresAlike hfail ((candidate_iff h).mpr ⟨p, hmem, rfl, hbase⟩) hallowed
  exact mem_inMemory.mpr ⟨hmem, hyes, hbase, hsame.symm.trans hkey⟩

theorem length_filter_lt {α : Type} {l : List α} {a b : α → Bool}
    (himp : ∀ x ∈ l, b x = true → a x = true) {x : α} (hx : x ∈ l.filter a) (hb : x ∉ l.filter b) :
    (l.filter b).length < (l.filter a).length := by
  have hfilter : l.filter b = (l.filter a).filter b := by
    rw [List.filter_filter]
    refine filter_congr fun y hy => ?_
    cases hby : b y with
    | false => rfl
    | true => rw [himp y hy hby]; rfl
  rw [hfilter] at hb ⊢
  refine length_filter_lt_length_iff_exists.mpr ⟨x, hx, fun hbx => hb ?_⟩
  exact mem_filter.mpr ⟨hx, hbx⟩

/-- The groups are there in both, as large as far as that is asked for, with longest durations that
agree. -/
def GroupsAlike (q : StepAggregateQuery)
    (pairs : List ((String × Int) × Memory.StepRow × OperationRow)) : Prop :=
  ∀ key, (inMemory q key pairs = [] ↔ inDatabase q key pairs = []) ∧ (inMemory q key pairs ≠ [] →
      (q.selectCount = true → (inMemory q key pairs).length = (inDatabase q key pairs).length) ∧
      (q.selectMaxDurationMs = true → ((lengths (inMemory q key pairs)).map i64).max? =
        Sqlite.readMax (lengths (inDatabase q key pairs))))

theorem failuresAlike_of_groupsAlike (h : StepPairs g db pairs) (hpre : q.workflowIdPrefix = none)
    (hall : GroupsAlike q pairs) : Memory.FailuresAlike q g := by
  intro row hcandidate hfailed
  obtain ⟨p, hp, rfl, hbase⟩ := (candidate_iff h).mp hcandidate
  have hderived := derivedStatus_of_failed hfailed
  -- A group of the database is one in memory, and the other way round.
  have hthere {key : List (String × Option String)} (hdb : inDatabase q key pairs ≠ []) :
      ∃ p', p' ∈ inMemory q key pairs :=
    exists_mem_of_ne_nil _ fun hnil => hdb ((hall key).1.mp hnil)
  by_cases hyes : Memory.Allowed q "SUCCESS" <;> by_cases herr : Memory.Allowed q "ERROR"
  · refine .inr (.inl ⟨hyes, herr, ?_⟩)
    cases hby : q.byStatus with
    | false => rfl
    | true =>
      have hmem : p ∈ inDatabase q (Memory.stepKeyAs q "ERROR" p.2.1) pairs :=
        (mem_inDatabase h hpre).mpr ⟨hp, hderived ▸ herr, hbase, hderived ▸ rfl⟩
      obtain ⟨p', hp'⟩ := hthere (ne_nil_of_mem hmem)
      have hkey := (mem_inMemory.mp hp').2.2.2
      rw [Memory.stepAggKey_eq] at hkey
      exact absurd (Memory.stepKeyAs_inj hby hkey) (by decide)
  · have hmem : p ∈ inMemory q (Memory.stepAggKey q p.2.1) pairs :=
      mem_inMemory.mpr ⟨hp, hyes, hbase, rfl⟩
    have hsuccess {p' : (String × Int) × Memory.StepRow × OperationRow}
        {key : List (String × Option String)} (hp' : p' ∈ inDatabase q key pairs) :
        p'.2.1.error = none := by
      cases herror : p'.2.1.error with
      | none => rfl
      | some e =>
        have hallowed := ((mem_inDatabase h hpre).mp hp').2.1
        rw [derivedStatus_of_failed (by rw [herror]; rfl)] at hallowed
        exact absurd hallowed herr
    have hsub {p' : (String × Int) × Memory.StepRow × OperationRow}
        {key : List (String × Option String)} (hp' : p' ∈ inDatabase q key pairs) :
        p' ∈ inMemory q key pairs := by
      obtain ⟨hmem', -, hbase', hkey'⟩ := (mem_inDatabase h hpre).mp hp'
      rw [derivedStatus_of_none (hsuccess hp'), ← Memory.stepAggKey_eq] at hkey'
      exact mem_inMemory.mpr ⟨hmem', hyes, hbase', hkey'⟩
    refine .inr (.inr ⟨hyes, herr, ?_, ?_⟩)
    · cases hcount : q.selectCount with
      | false => rfl
      | true =>
        have hlength := ((hall _).2 (ne_nil_of_mem hmem)).1 hcount
        have hlt := length_filter_lt (fun x hx hb => (mem_filter.mp
          (hsub (mem_filter.mpr ⟨hx, hb⟩))).2) hmem fun hdb => by
            rw [hsuccess hdb] at hfailed
            cases hfailed
        exact absurd hlength (Nat.ne_of_gt hlt)
    · obtain ⟨p', hp'⟩ := exists_mem_of_ne_nil _ fun hnil =>
        ne_nil_of_mem hmem ((hall _).1.mpr hnil)
      obtain ⟨hmem', -, hbase', hkey'⟩ := mem_inMemory.mp (hsub hp')
      exact ⟨p'.2.1, (candidate_iff h).mpr ⟨p', hmem', rfl, hbase'⟩, hsuccess hp', hkey'⟩
  · have hmem : p ∈ inDatabase q (Memory.stepKeyAs q "ERROR" p.2.1) pairs :=
      (mem_inDatabase h hpre).mpr ⟨hp, hderived ▸ herr, hbase, hderived ▸ rfl⟩
    obtain ⟨p', hp'⟩ := hthere (ne_nil_of_mem hmem)
    exact absurd (mem_inMemory.mp hp').2.1 hyes
  · exact .inl ⟨hyes, herr⟩

theorem mem_lengths {d : Int} {l : List ((String × Int) × Memory.StepRow × OperationRow)} :
    d ∈ lengths l ↔ ∃ p ∈ l, Memory.stepLength p.2.1 = some d := by
  rw [lengths, mem_filterMap]

/-- If failures make no difference, the longest durations agree exactly if the durations fit. -/
theorem durationsFit_iff (h : StepPairs g db pairs) (hpre : q.workflowIdPrefix = none)
    (hfail : Memory.FailuresAlike q g) : Memory.DurationsFit q g ↔
      ∀ key, ((lengths (inMemory q key pairs)).map i64).max? =
        Sqlite.readMax (lengths (inDatabase q key pairs)) := by
  have hsub (key : List (String × Option String)) :
      lengths (inDatabase q key pairs) ⊆ lengths (inMemory q key pairs) := by
    intro d hd
    obtain ⟨p, hp, hlength⟩ := mem_lengths.mp hd
    exact mem_lengths.mpr ⟨p, mem_inMemory_of_failuresAlike h hpre hfail hp, hlength⟩
  simp only [max?_i64_eq_readMax_iff (hsub _)]
  constructor
  · intro hfit key
    refine ⟨fun d hd => ?_, fun m hm => ?_⟩
    · obtain ⟨p, hp, hlength⟩ := mem_lengths.mp hd
      obtain ⟨hmem, hallowed, hbase, -⟩ := (mem_inDatabase h hpre).mp hp
      exact hfit.bounded p.2.1 d ((candidate_iff h).mpr ⟨p, hmem, rfl, hbase⟩) hallowed hlength
    · obtain ⟨p, hp, hlength⟩ := mem_lengths.mp hm
      obtain ⟨hmem, hyes, hbase, rfl⟩ := mem_inMemory.mp hp
      obtain ⟨row', d, hcandidate, hallowed, hkey, hlength', hle⟩ :=
        hfit.covered p.2.1 m ((candidate_iff h).mpr ⟨p, hmem, rfl, hbase⟩) hyes hlength
      have hsame := (key_of_failuresAlike hfail hcandidate hallowed).2
      obtain ⟨p', hp', rfl, hbase'⟩ := (candidate_iff h).mp hcandidate
      exact ⟨d, mem_lengths.mpr ⟨p', (mem_inDatabase h hpre).mpr
        ⟨hp', hallowed, hbase', hsame.trans hkey⟩, hlength'⟩, hle⟩
  · intro hall
    refine ⟨fun row d hcandidate hallowed hlength => ?_, fun row d hcandidate hyes hlength => ?_⟩
    · obtain ⟨p, hp, rfl, hbase⟩ := (candidate_iff h).mp hcandidate
      have hdb : p ∈ inDatabase q (Memory.stepKeyAs q (Memory.derivedStatus p.2.1) p.2.1) pairs :=
        (mem_inDatabase h hpre).mpr ⟨hp, hallowed, hbase, rfl⟩
      exact (hall _).1 d (mem_lengths.mpr ⟨p, hdb, hlength⟩)
    · obtain ⟨p, hp, rfl, hbase⟩ := (candidate_iff h).mp hcandidate
      obtain ⟨d', hd', hle⟩ := (hall _).2 d
        (mem_lengths.mpr ⟨p, mem_inMemory.mpr ⟨hp, hyes, hbase, rfl⟩, hlength⟩)
      obtain ⟨p', hp', hlength'⟩ := mem_lengths.mp hd'
      obtain ⟨hmem', hallowed', hbase', -⟩ := (mem_inDatabase h hpre).mp hp'
      have hkey := (mem_inMemory.mp (mem_inMemory_of_failuresAlike h hpre hfail hp')).2.2.2
      exact ⟨p'.2.1, d', (candidate_iff h).mpr ⟨p', hmem', rfl, hbase'⟩, hallowed', hkey, hlength',
        hle⟩

/-- A successful step that memory counts is counted by the database. -/
theorem mem_inDatabase_of_success (h : StepPairs g db pairs) (hpre : q.workflowIdPrefix = none)
    (hp : p ∈ inMemory q key pairs) (hnone : p.2.1.error = none) : p ∈ inDatabase q key pairs := by
  obtain ⟨hmem, hyes, hbase, hkey⟩ := mem_inMemory.mp hp
  rw [Memory.stepAggKey_eq] at hkey
  rw [mem_inDatabase h hpre, derivedStatus_of_none hnone]
  exact ⟨hmem, hyes, hbase, hkey⟩

/-- What becomes of a failed step that memory counts, if failures make no difference. -/
theorem failed_of_failuresAlike (h : StepPairs g db pairs) (hpre : q.workflowIdPrefix = none)
    (hfail : Memory.FailuresAlike q g) (hp : p ∈ inMemory q key pairs)
    (hfailed : p.2.1.error.isSome = true) :
    p ∈ inDatabase q key pairs ∨
      (q.selectCount = false ∧ ∃ p', p' ∈ inDatabase q key pairs) := by
  obtain ⟨hmem, hyes, hbase, rfl⟩ := mem_inMemory.mp hp
  have hcandidate := (candidate_iff h).mpr ⟨p, hmem, rfl, hbase⟩
  rcases hfail p.2.1 hcandidate hfailed with
    ⟨hnot, -⟩ | ⟨-, herr, hby⟩ | ⟨-, -, hcount, row', hcandidate', hnone, hkey⟩
  · exact absurd hyes hnot
  · refine .inl ((mem_inDatabase h hpre).mpr ?_)
    rw [derivedStatus_of_failed hfailed, Memory.stepAggKey_eq]
    exact ⟨hmem, herr, hbase, Memory.stepKeyAs_congr hby _ _⟩
  · obtain ⟨p', hmem', rfl, hbase'⟩ := (candidate_iff h).mp hcandidate'
    exact .inr ⟨hcount, p',
      mem_inDatabase_of_success h hpre (mem_inMemory.mpr ⟨hmem', hyes, hbase', hkey⟩) hnone⟩

/-- **The groups of steps are alike exactly if failures make no difference and the durations fit.**
-/
theorem groupsAlike_iff (h : StepPairs g db pairs) (hpre : q.workflowIdPrefix = none) :
    GroupsAlike q pairs ↔ Memory.FailuresAlike q g ∧
      (q.selectMaxDurationMs = true → Memory.DurationsFit q g) := by
  constructor
  · intro hall
    have hfail := failuresAlike_of_groupsAlike h hpre hall
    refine ⟨hfail, fun hmax => (durationsFit_iff h hpre hfail).mpr fun key => ?_⟩
    by_cases hnil : inMemory q key pairs = []
    · rw [hnil, (hall key).1.mp hnil]
      rfl
    · exact ((hall key).2 hnil).2 hmax
  · rintro ⟨hfail, hfit⟩ key
    have hsub {p : (String × Int) × Memory.StepRow × OperationRow}
        (hp : p ∈ inDatabase q key pairs) := mem_inMemory_of_failuresAlike h hpre hfail hp
    refine ⟨⟨fun hnil => ?_, fun hnil => ?_⟩, fun _ => ⟨fun hcount => ?_, fun hmax => ?_⟩⟩
    · refine eq_nil_iff_forall_not_mem.mpr fun p hp => ?_
      exact eq_nil_iff_forall_not_mem.mp hnil p (hsub hp)
    · refine eq_nil_iff_forall_not_mem.mpr fun p hp => ?_
      have hempty := eq_nil_iff_forall_not_mem.mp hnil
      cases herror : p.2.1.error with
      | none => exact hempty p (mem_inDatabase_of_success h hpre hp herror)
      | some e =>
        rcases failed_of_failuresAlike h hpre hfail hp (by rw [herror]; rfl) with
          hdb | ⟨-, p', hdb⟩
        · exact hempty p hdb
        · exact hempty p' hdb
    · refine congrArg List.length (filter_congr fun p hp => Bool.eq_iff_iff.mpr ?_)
      refine ⟨fun hm => ?_, fun hd => ?_⟩
      · have hmem : p ∈ inMemory q key pairs := mem_filter.mpr ⟨hp, hm⟩
        cases herror : p.2.1.error with
        | none => exact (mem_filter.mp (mem_inDatabase_of_success h hpre hmem herror)).2
        | some e =>
          rcases failed_of_failuresAlike h hpre hfail hmem (by rw [herror]; rfl) with
            hdb | ⟨hno, -⟩
          · exact (mem_filter.mp hdb).2
          · exact absurd (hcount.symm.trans hno) (by decide)
      · exact (mem_filter.mp (hsub (mem_filter.mpr ⟨hp, hd⟩))).2
    · exact (durationsFit_iff h hpre hfail).mp (hfit hmax) key

end StepPairs

variable {q : StepAggregateQuery}

/-- **The aggregates of steps agree exactly if there is something to group by, failures make no
difference, and the durations, if they are asked for, fit.** -/
theorem stepsAgree_iff {g : Memory.Inner} {db : Sqlite.Db} (h : Mirrors g db) (hq : q.Comparable) :
    StepsAgree q g db ↔ ¬(q.groupExprs = [] ∧ q.bucket = none) ∧ Memory.FailuresAlike q g ∧
      (q.selectMaxDurationMs = true → Memory.DurationsFit q g) := by
  by_cases hgrouped : q.groupExprs = [] ∧ q.bucket = none
  · refine ⟨fun hagree => ?_, fun hcond => absurd hgrouped hcond.1⟩
    obtain ⟨out, out', -, hout', -⟩ := hagree
    unfold Sqlite.getStepAggregates at hout'
    rw [hgrouped.1, hgrouped.2] at hout'
    cases hout'
  obtain ⟨pairs, hleft, hright, hsame⟩ := AList.exists_pairs h.steps
  have hpairs : StepPairs g db pairs := ⟨hleft, hright, hsame⟩
  obtain ⟨out, hout, hperm⟩ := Memory.getStepAggregates_perm q g hq.unlimited
  obtain ⟨out', hout', hmem'⟩ := @Sqlite.mem_getStepAggregates q db hq.unlimited hgrouped
  have hagree : StepsAgree q g db ↔ ∀ a, a ∈ out ↔ a ∈ out' := by
    constructor
    · rintro ⟨out₁, out₂, h₁, h₂, hall⟩
      cases Except.ok.inj (hout.symm.trans h₁)
      cases Except.ok.inj (hout'.symm.trans h₂)
      exact hall
    · exact fun hall => ⟨out, out', hout, hout', hall⟩
  -- The map of a group tells its key.
  have htell : ∀ row ∈ Memory.countedSteps q g, ∀ r ∈ Sqlite.countedSteps q db, ∀ l l',
      Memory.stepAggregate q (Memory.stepAggKey q row) l =
        Sqlite.stepAggregate q (Sqlite.stepRowKey q r) l' →
      Memory.stepAggKey q row = Sqlite.stepRowKey q r := by
    intro row _ r hr l l' heq
    obtain ⟨e, he, rfl⟩ := mem_map.mp hr
    obtain ⟨p, hp, rfl⟩ := mem_map.mp (hright.mem_iff.mp (mem_filter.mp he).1)
    rw [Sqlite.stepRowKey_eq (hsame p hp), Memory.stepAggKey_eq] at heq ⊢
    exact Group.collect_inj ((Memory.keys_stepKeyAs q _ row).trans
      (Memory.keys_stepKeyAs q _ p.2.1).symm) (Memory.nodup_stepKeyAs q _ row)
      (congrArg StepAggregate.group heq)
  rw [hagree, and_iff_right hgrouped, ← StepPairs.groupsAlike_iff hpairs hq.unprefixed]
  simp only [hperm.mem_iff, hmem']
  rw [Grouping.shown_alike_iff htell, StepPairs.GroupsAlike]
  refine forall_congr' fun key => ?_
  rw [hpairs.members_inMemory, Sqlite.stepAggregate_congr hpairs.members_inDatabase,
    hpairs.stepAggregate_eq_iff, map_eq_nil_iff, Ne, map_eq_nil_iff,
    Sqlite.eq_nil_iff_of_perm hpairs.members_inDatabase]

/-- **When the aggregates of the two backends agree**, for every query the engine accepts. -/
theorem aggregates_agree_iff {g : Memory.Inner} {db : Sqlite.Db} (h : Mirrors g db) :
    (∀ q : WorkflowAggregateQuery, q.Comparable →
      (WorkflowsAgree q g db ↔ ¬(q.enabledColumns = [] ∧ q.bucket = none) ∧
        (q.selectMaxQueueWaitMs = true → Memory.NoneWraps q g (·.startedAtMs)) ∧
        (q.selectMaxTotalLatencyMs = true → Memory.NoneWraps q g (·.completedAtMs)))) ∧
    ∀ q : StepAggregateQuery, q.Comparable →
      (StepsAgree q g db ↔ ¬(q.groupExprs = [] ∧ q.bucket = none) ∧ Memory.FailuresAlike q g ∧
        (q.selectMaxDurationMs = true → Memory.DurationsFit q g)) :=
  ⟨fun _ hq => workflowsAgree_iff h hq, fun _ hq => stepsAgree_iff h hq⟩

/-! ## Instances -/

namespace Memory

/-- A step that was charged for, and failed or not. -/
def charge (error : Option String) : StepRow :=
  { name := "charge", output := none, error := error, startedAtMs := some 1,
    completedAtMs := some 3 }

/-- A workflow with this step. -/
def chargedOnce (error : Option String) : Inner where
  workflows := AList.insert "wf" (.new ⟨0⟩ "wf" "pay" .null .pending "local" "") ∅
  steps := AList.insert ("wf", 0) (charge error) ∅

/-- The row of the step in a database. -/
def chargeRow (error : Option String) : OperationRow where
  functionName := "charge"
  error := error
  startedAtEpochMs := some 1
  completedAtEpochMs := some 3

/-- The same in a database. -/
def chargedRow (error : Option String) : Sqlite.Db where
  workflowStatus := AList.insert "wf" (Sqlite.insertedRow noText .json
    (.new ⟨0⟩ "wf" "pay" .null .pending "local" "") "null") ∅
  operationOutputs := AList.insert ("wf", 0) (chargeRow error) ∅

theorem mirrors_charged (error : Option String) : Mirrors (chargedOnce error)
    (chargedRow error) where
  rows id := by
    by_cases hid : id = "wf"
    · subst hid
      exact .some ⟨rfl, rfl, rfl, rfl, rfl, rfl, rfl, rfl, rfl, rfl, rfl, rfl⟩
    · rw [chargedOnce, chargedRow, AList.lookup_insert_ne hid, AList.lookup_insert_ne hid]
      exact .none
  steps key := by
    by_cases hkey : key = ("wf", 0)
    · subst hkey
      exact .some ⟨rfl, rfl, rfl, rfl⟩
    · rw [chargedOnce, chargedRow, AList.lookup_insert_ne hkey, AList.lookup_insert_ne hkey]
      exact .none

theorem candidate_charged {error : Option String} {row : StepRow}
    (h : Candidate q (chargedOnce error) row) : row = charge error := by
  obtain ⟨key, hkey, -⟩ := h
  have hall : ∀ key row, (chargedOnce error).steps.lookup key = some row → row = charge error :=
    AList.forall_lookup_insert nofun rfl
  exact hall key row hkey

/-- The number of steps, by status. -/
def countByStatus : StepAggregateQuery where
  byStatus := true
  selectCount := true

theorem comparable_countByStatus : countByStatus.Comparable := ⟨rfl, rfl, rfl, rfl⟩

/-- The number of workflows, in buckets of no size. -/
def countByNothing : WorkflowAggregateQuery where
  timeBucketMs := some 0
  selectCount := true

theorem comparable_countByNothing : countByNothing.Comparable := ⟨rfl, rfl, rfl, rfl⟩

end Memory

/-- A step that succeeded, and the workflow by name. -/
theorem aggregates_agree_charged :
    WorkflowsAgree { byName := true, selectCount := true } (Memory.chargedOnce none)
      (Memory.chargedRow none) ∧
    StepsAgree Memory.countByStatus (Memory.chargedOnce none) (Memory.chargedRow none) := by
  have h := aggregates_agree_iff (Memory.mirrors_charged none)
  constructor
  · refine (h.1 _ ⟨rfl, rfl, rfl, rfl⟩).mpr ⟨by decide, fun hno => ?_, fun hno => ?_⟩
    · cases hno
    · cases hno
  · refine (h.2 _ Memory.comparable_countByStatus).mpr ⟨by decide, fun row hrow hfailed => ?_,
      fun hno => ?_⟩
    · cases Memory.candidate_charged hrow
      cases hfailed
    · cases hno

/-- **A failed step is a success in memory and an error in SQLite; and buckets of no size are one
group in memory, and refused by SQLite.** -/
theorem failed_step_disagrees :
    Mirrors (Memory.chargedOnce (some "declined")) (Memory.chargedRow (some "declined")) ∧
    (Memory.countByStatus.Comparable ∧ ¬StepsAgree Memory.countByStatus
      (Memory.chargedOnce (some "declined")) (Memory.chargedRow (some "declined"))) ∧
    (Memory.countByNothing.Comparable ∧ ¬WorkflowsAgree Memory.countByNothing
      (Memory.chargedOnce (some "declined")) (Memory.chargedRow (some "declined"))) := by
  have h := Memory.mirrors_charged (some "declined")
  refine ⟨h, ⟨Memory.comparable_countByStatus, fun hagree => ?_⟩,
    Memory.comparable_countByNothing, fun hagree => ?_⟩
  · obtain ⟨-, hfail, -⟩ := (stepsAgree_iff h Memory.comparable_countByStatus).mp hagree
    rcases hfail (Memory.charge (some "declined")) ⟨("wf", 0), rfl, rfl⟩ rfl with
      ⟨hnot, -⟩ | ⟨-, -, hby⟩ | ⟨-, -, hcount, -⟩
    · exact hnot rfl
    · cases hby
    · cases hcount
  · exact ((workflowsAgree_iff h Memory.comparable_countByNothing).mp hagree).1 ⟨rfl, rfl⟩

end Durare
