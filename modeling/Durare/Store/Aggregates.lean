import Durare.Machinery.Grouping
import Durare.Store.Memory
import Durare.Store.Sqlite

/-!
# Store/Aggregates — counting workflows and steps by group

The in-memory backend goes through its rows once and keeps an accumulator for each group it has met.
The SQLite backend writes a `SELECT … GROUP BY` and leaves the grouping to the database; integers
are divided toward zero there as here, a difference that leaves the 64-bit range becomes a `REAL`,
and a `REAL` is not read as an `i64`.
-/

namespace Durare

/-! ## Queries -/

/-- The columns workflows are grouped by. -/
inductive Dimension where
  | status
  | name
  | queueName
  | executorId
  | applicationVersion
  deriving DecidableEq, Repr

/-- The text a dimension goes by, both in a group and as a column. -/
def Dimension.key : Dimension → String
  | status => "status"
  | name => "name"
  | queueName => "queue_name"
  | executorId => "executor_id"
  | applicationVersion => "application_version"

def AGG_DIMENSIONS : List Dimension :=
  [.status, .name, .queueName, .executorId, .applicationVersion]

/-- How to group workflows, what to select of a group, and which workflows to count; an empty list
or `none` does not filter. -/
structure WorkflowAggregateQuery where
  byStatus : Bool := false
  byName : Bool := false
  byQueueName : Bool := false
  byExecutorId : Bool := false
  byAppVersion : Bool := false
  selectCount : Bool := false
  selectMinCreatedAt : Bool := false
  selectMaxQueueWaitMs : Bool := false
  selectMaxTotalLatencyMs : Bool := false
  timeBucketMs : Option Int := none
  status : List Status := []
  name : List String := []
  appVersion : List String := []
  executorIds : List String := []
  queueNames : List String := []
  workflowIdPrefix : Option String := none
  startTimeMs : Option Int := none
  endTimeMs : Option Int := none
  completedAfterMs : Option Int := none
  completedBeforeMs : Option Int := none
  dequeuedAfterMs : Option Int := none
  dequeuedBeforeMs : Option Int := none
  limit : Option Int := none

namespace WorkflowAggregateQuery

variable (q : WorkflowAggregateQuery)

def enabledColumns : List Dimension :=
  ((AGG_DIMENSIONS.zip [q.byStatus, q.byName, q.byQueueName, q.byExecutorId, q.byAppVersion]).filter
    (·.2)).map (·.1)

/-- Nothing to group by. -/
def isEmpty : Bool := q.enabledColumns.isEmpty && q.timeBucketMs.isNone

/-- Nothing to select. -/
def noSelect : Bool :=
  !q.selectCount && !q.selectMinCreatedAt && !q.selectMaxQueueWaitMs && !q.selectMaxTotalLatencyMs

/-- The size of the time buckets; one that is not positive is no size. -/
def bucket : Option Int := q.timeBucketMs.filter (0 < ·)

end WorkflowAggregateQuery

/-- What steps are grouped by. -/
inductive StepDimension where
  | functionName
  | status
  deriving DecidableEq, Repr

def StepDimension.key : StepDimension → String
  | functionName => "function_name"
  | status => "status"

/-- How to group steps, what to select of a group, and which steps to count. -/
structure StepAggregateQuery where
  byFunctionName : Bool := false
  byStatus : Bool := false
  selectCount : Bool := false
  selectMaxDurationMs : Bool := false
  timeBucketMs : Option Int := none
  status : List String := []
  functionName : List String := []
  workflowIdPrefix : Option String := none
  completedAfterMs : Option Int := none
  completedBeforeMs : Option Int := none
  limit : Option Int := none

namespace StepAggregateQuery

variable (q : StepAggregateQuery)

def groupExprs : List StepDimension :=
  (if q.byFunctionName then [.functionName] else []) ++ if q.byStatus then [.status] else []

/-- Nothing to group by. -/
def noGrouping : Bool := !q.byFunctionName && !q.byStatus && q.timeBucketMs.isNone

/-- Nothing to select. -/
def noSelect : Bool := !q.selectCount && !q.selectMaxDurationMs

/-- The size of the time buckets; one that is not positive is no size. -/
def bucket : Option Int := q.timeBucketMs.filter (0 < ·)

end StepAggregateQuery

/-! ## Groups -/

/-- A `BTreeMap` of the grouping dimensions to their values: its entries, by key. -/
abbrev Group := List (String × Option String)

/-- `BTreeMap::insert`. -/
def Group.insert (k : String) (v : Option String) : Group → Group
  | [] => [(k, v)]
  | (k', v') :: m =>
    if k < k' then (k, v) :: (k', v') :: m
    else if k = k' then (k, v) :: m
    else (k', v') :: Group.insert k v m

/-- The map with these entries. -/
def Group.collect (entries : List (String × Option String)) : Group :=
  entries.foldl (fun m e => Group.insert e.1 e.2 m) []

/-- The order of the entries of two maps, entry by entry. -/
def Group.le : Group → Group → Bool
  | [], _ => true
  | _ :: _, [] => false
  | a :: m, b :: m' => match (compare a.1 b.1).then (compare a.2 b.2) with
    | .lt => true
    | .gt => false
    | .eq => Group.le m m'

/-- The start of the bucket of a time, `(t / bucket) * bucket`. -/
def bucketStart (bucket t : Int) : Int := t.tdiv bucket * bucket

/-- One group of workflows; what was not selected is `none`. -/
structure WorkflowAggregate where
  group : Group
  count : Option Int
  minCreatedAt : Option Int
  maxQueueWaitMs : Option Int
  maxTotalLatencyMs : Option Int

/-- One group of steps. -/
structure StepAggregate where
  group : Group
  count : Option Int
  maxDurationMs : Option Int

/-! ## The in-memory backend -/

namespace Memory

/-- The workflow is counted. -/
def aggPasses (q : WorkflowAggregateQuery) (w : WorkflowStatus) : Bool :=
  anyOf q.status w.status &&
  anyOf q.name w.name &&
  anyOf q.appVersion w.appVersion &&
  anyOf q.executorIds w.executorId &&
  anyOfOpt q.queueNames w.queueName &&
  noneOr q.workflowIdPrefix (fun p => w.id.startsWith p) &&
  noneOr q.startTimeMs (fun t => t ≤ w.createdAt.timestampMillis) &&
  noneOr q.endTimeMs (fun t => w.createdAt.timestampMillis ≤ t) &&
  noneOr q.completedAfterMs (fun t => w.completedAtMs.any (t ≤ ·)) &&
  noneOr q.completedBeforeMs (fun t => w.completedAtMs.any (· ≤ t)) &&
  noneOr q.dequeuedAfterMs (fun t => w.startedAtMs.any (t ≤ ·)) &&
  noneOr q.dequeuedBeforeMs (fun t => w.startedAtMs.any (· ≤ t))

/-- The value of a workflow at a dimension. -/
def dimension (w : WorkflowStatus) : Dimension → Option String
  | .status => some w.status.text
  | .name => some w.name
  | .queueName => w.queueName
  | .executorId => some w.executorId
  | .applicationVersion => some w.appVersion

/-- The entry of a group for its time bucket. -/
def bucketEntry (bucket t : Option Int) : List (String × Option String) :=
  match bucket with
  | some b => [("time_bucket", t.map fun t => toString (bucketStart b t))]
  | none => []

/-- The key of the group a workflow belongs to. -/
def aggKey (q : WorkflowAggregateQuery) (w : WorkflowStatus) : List (String × Option String) :=
  (q.enabledColumns.map fun d => (d.key, dimension w d)) ++
    bucketEntry q.bucket (some w.createdAt.timestampMillis)

/-- What is kept of a group while its workflows are counted. -/
structure AggAcc where
  count : Int := 0
  minCreated : Option Int := none
  maxQueueWait : Option Int := none
  maxTotalLatency : Option Int := none

def queueWait (w : WorkflowStatus) : Option Int :=
  w.startedAtMs.map fun s => i64 (s - w.createdAt.timestampMillis)

def totalLatency (w : WorkflowStatus) : Option Int :=
  w.completedAtMs.map fun c => i64 (c - w.createdAt.timestampMillis)

/-- The larger one, of what was found so far and what a row has. -/
def keepMax (best found : Option Int) : Option Int :=
  match found with
  | some x => some (best.elim x fun m => max m x)
  | none => best

/-- Count one more workflow. -/
def AggAcc.add (acc : AggAcc) (w : WorkflowStatus) : AggAcc where
  count := acc.count + 1
  minCreated := some (acc.minCreated.elim w.createdAt.timestampMillis fun m =>
    min m w.createdAt.timestampMillis)
  maxQueueWait := keepMax acc.maxQueueWait (queueWait w)
  maxTotalLatency := keepMax acc.maxTotalLatency (totalLatency w)

def AggAcc.toAggregate (q : WorkflowAggregateQuery) (key : List (String × Option String))
    (acc : AggAcc) : WorkflowAggregate where
  group := .collect key
  count := if q.selectCount then some acc.count else none
  minCreatedAt := if q.selectMinCreatedAt then acc.minCreated else none
  maxQueueWaitMs := if q.selectMaxQueueWaitMs then acc.maxQueueWait else none
  maxTotalLatencyMs := if q.selectMaxTotalLatencyMs then acc.maxTotalLatency else none

/-- `truncate` -/
def truncate {α : Type} (limit : Option Int) (rows : List α) : List α :=
  match limit with
  | some lim => rows.take (max lim 0).toNat
  | none => rows

def getWorkflowAggregates (q : WorkflowAggregateQuery) : Method (List WorkflowAggregate) := fun g =>
  let accs := Grouping.accumulate (aggKey q) AggAcc.add {} (g.workflows.values.filter (aggPasses q))
  let out := accs.entries.map fun e => e.2.toAggregate q e.1
  (.ok (truncate q.limit (out.mergeSort fun a b => a.group.le b.group)), g)

/-- Every step counts as this, failed ones too. -/
def stepStatus : String := "SUCCESS"

/-- The step is counted. -/
def stepAggPasses (q : StepAggregateQuery) (workflowId : String) (row : StepRow) : Bool :=
  anyOf q.status stepStatus &&
  anyOf q.functionName row.name &&
  noneOr q.workflowIdPrefix (fun p => workflowId.startsWith p) &&
  noneOr q.completedAfterMs (fun t => row.completedAtMs.any (t ≤ ·)) &&
  noneOr q.completedBeforeMs (fun t => row.completedAtMs.any (· ≤ t))

def stepDimension (row : StepRow) : StepDimension → Option String
  | .functionName => some row.name
  | .status => some stepStatus

def stepAggKey (q : StepAggregateQuery) (row : StepRow) : List (String × Option String) :=
  (q.groupExprs.map fun d => (d.key, stepDimension row d)) ++ bucketEntry q.bucket row.completedAtMs

def stepDuration (row : StepRow) : Option Int :=
  match row.startedAtMs, row.completedAtMs with
  | some start, some finish => some (i64 (finish - start))
  | _, _ => none

/-- What is kept of a group: the number of its steps, and the longest duration. -/
def addStep (acc : Int × Option Int) (row : StepRow) : Int × Option Int :=
  (acc.1 + 1, keepMax acc.2 (stepDuration row))

def toStepAggregate (q : StepAggregateQuery) (key : List (String × Option String))
    (acc : Int × Option Int) : StepAggregate where
  group := .collect key
  count := if q.selectCount then some acc.1 else none
  maxDurationMs := if q.selectMaxDurationMs then acc.2 else none

/-- The steps that are counted. -/
def countedSteps (q : StepAggregateQuery) (g : Inner) : List StepRow :=
  (g.steps.entries.filter fun e => stepAggPasses q e.1.1 e.2).map (·.2)

def getStepAggregates (q : StepAggregateQuery) : Method (List StepAggregate) := fun g =>
  let accs := Grouping.accumulate (stepAggKey q) addStep (0, none) (countedSteps q g)
  let out := accs.entries.map fun e => toStepAggregate q e.1 e.2
  (.ok (truncate q.limit (out.mergeSort fun a b => a.group.le b.group)), g)

end Memory

/-! ## The SQLite backend -/

namespace Sqlite

/-- `workflow_uuid LIKE 'prefix%'`. -/
def hasPrefix (id start : String) : Bool := like (start.toList ++ ['%']) id.toList

/-- The row passes the `WHERE` clause of `push_agg_filters`. -/
def aggPasses (q : WorkflowAggregateQuery) (r : StatusRow) : Bool :=
  anyOf q.status r.status &&
  anyOf q.name r.name &&
  anyOf q.appVersion r.applicationVersion &&
  anyOf q.executorIds r.executorId &&
  anyOfOpt q.queueNames r.queueName &&
  q.workflowIdPrefix.all (hasPrefix r.workflowUuid) &&
  q.startTimeMs.all (fun t => t ≤ r.createdAt) &&
  q.endTimeMs.all (fun t => r.createdAt ≤ t) &&
  q.completedAfterMs.all (fun t => r.completedAt.any (t ≤ ·)) &&
  q.completedBeforeMs.all (fun t => r.completedAt.any (· ≤ t)) &&
  q.dequeuedAfterMs.all (fun t => r.startedAtEpochMs.any (t ≤ ·)) &&
  q.dequeuedBeforeMs.all (fun t => r.startedAtEpochMs.any (· ≤ t))

/-- A column that workflows are grouped by. -/
def column (r : StatusRow) : Dimension → Option String
  | .status => some r.status.text
  | .name => some r.name
  | .queueName => r.queueName
  | .executorId => some r.executorId
  | .applicationVersion => some r.applicationVersion

/-- The values a row is grouped by: the columns, and the bucket of a time. -/
abbrev GroupKey := List (Option String) × Option Int

/-- `(t / bucket) * bucket`, null if the column is. -/
def timeBucket (bucket t : Option Int) : Option Int := bucket.bind fun b => t.map (bucketStart b)

def aggKey (q : WorkflowAggregateQuery) (r : StatusRow) : GroupKey :=
  (q.enabledColumns.map (column r), timeBucket q.bucket (some r.createdAt))

/-- The difference of two columns, null if one of them is. -/
def difference (a b : Option Int) : Option Int := a.bind fun a => b.map fun b => a - b

/-- `MAX` of differences, read as an `i64`.  Beyond the 64-bit range a difference is a `REAL`, above
or below all that are in the range; if it is the largest, the column does not decode. -/
def readMax (differences : List Int) : Option Int :=
  differences.max?.filter fun d => -0x8000000000000000 ≤ d && d < 0x8000000000000000

/-- `row_to_aggregate` and `row_to_step_aggregate`: the map of the group. -/
def groupOf (keys : List String) (bucket : Option Int) (k : GroupKey) : Group :=
  let group := .collect (keys.zip k.1)
  if bucket.isSome then group.insert "time_bucket" (k.2.map toString) else group

/-- A `GROUP BY` with no terms. -/
def emptyGroupBy (limit : Option Int) : Error :=
  .db (.database (some "1") none (if limit.isSome then "(code: 1) near \"LIMIT\": syntax error"
    else "(code: 1) incomplete input"))

/-- One row of the answer. -/
def rowToAggregate (q : WorkflowAggregateQuery) (k : GroupKey) (rows : List StatusRow) :
    WorkflowAggregate where
  group := groupOf (q.enabledColumns.map Dimension.key) q.bucket k
  count := if q.selectCount then some rows.length else none
  minCreatedAt := if q.selectMinCreatedAt then (rows.map (·.createdAt)).min? else none
  maxQueueWaitMs := if q.selectMaxQueueWaitMs then
    readMax (rows.filterMap fun r => difference r.startedAtEpochMs (some r.createdAt)) else none
  maxTotalLatencyMs := if q.selectMaxTotalLatencyMs then
    readMax (rows.filterMap fun r => difference r.completedAt (some r.createdAt)) else none

def getWorkflowAggregates (q : WorkflowAggregateQuery) :
    Method (List WorkflowAggregate) := fun db =>
  if q.enabledColumns.isEmpty && q.bucket.isNone then (.error (emptyGroupBy q.limit), db)
  else
    let groups := Grouping.groups (aggKey q) (db.workflowStatus.values.filter (aggPasses q))
    (.ok (limitRows q.limit (groups.map fun g => rowToAggregate q g.1 g.2)), db)

/-- `STEP_STATUS_EXPR` -/
def stepStatus (r : OperationRow) : String := if r.error.isNone then "SUCCESS" else "ERROR"

/-- The row passes the `WHERE` clause of `push_step_agg_filters`. -/
def stepAggPasses (q : StepAggregateQuery) (workflowId : String) (r : OperationRow) : Bool :=
  anyOf q.status (stepStatus r) &&
  anyOf q.functionName r.functionName &&
  q.workflowIdPrefix.all (hasPrefix workflowId) &&
  q.completedAfterMs.all (fun t => r.completedAtEpochMs.any (t ≤ ·)) &&
  q.completedBeforeMs.all (fun t => r.completedAtEpochMs.any (· ≤ t))

def stepColumn (r : OperationRow) : StepDimension → Option String
  | .functionName => some r.functionName
  | .status => some (stepStatus r)

def stepAggKey (q : StepAggregateQuery) (r : OperationRow) : GroupKey :=
  (q.groupExprs.map (stepColumn r), timeBucket q.bucket r.completedAtEpochMs)

/-- One row of the answer. -/
def rowToStepAggregate (q : StepAggregateQuery) (k : GroupKey) (rows : List OperationRow) :
    StepAggregate where
  group := groupOf (q.groupExprs.map StepDimension.key) q.bucket k
  count := if q.selectCount then some rows.length else none
  maxDurationMs := if q.selectMaxDurationMs then
    readMax (rows.filterMap fun r => difference r.completedAtEpochMs r.startedAtEpochMs) else none

/-- The steps that are counted. -/
def countedSteps (q : StepAggregateQuery) (db : Db) : List OperationRow :=
  (db.operationOutputs.entries.filter fun e => stepAggPasses q e.1.1 e.2).map (·.2)

def getStepAggregates (q : StepAggregateQuery) : Method (List StepAggregate) := fun db =>
  if q.groupExprs.isEmpty && q.bucket.isNone then (.error (emptyGroupBy q.limit), db)
  else
    let groups := Grouping.groups (stepAggKey q) (countedSteps q db)
    (.ok (limitRows q.limit (groups.map fun g => rowToStepAggregate q g.1 g.2)), db)

end Sqlite

end Durare
