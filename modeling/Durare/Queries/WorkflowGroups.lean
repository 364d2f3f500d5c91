import Durare.Queries.Mirrors
import Durare.Queries.Partition
import Std.Data.String.ToInt

/-!
# Queries/WorkflowGroups — groups of workflows in two backends

SQLite groups by the values of columns and of a bucket, which is a number; the in-memory backend by
texts.  As numbers are told apart by their texts, the groups are the same (`groups_alike`), and with
them counts and minima.

`workflowsAgree_iff`: the answers are the same exactly if no delay that is asked for wraps around
and there is something to group by.  A bucket that is not positive is not grouped by, but it passes
for a grouping when the query is checked, and `GROUP BY` with no terms is rejected by SQLite.
-/

namespace Durare

open List

/-! ## Keys -/

namespace Sqlite

/-- The entries of the map of a group. -/
def textKey (keys : List String) (bucket : Option Int) (k : GroupKey) :
    List (String × Option String) :=
  keys.zip k.1 ++ if bucket.isSome then [("time_bucket", k.2.map toString)] else []

theorem groupOf_eq (keys : List String) (bucket : Option Int) (k : GroupKey) :
    groupOf keys bucket k = Group.collect (textKey keys bucket k) := by
  unfold groupOf textKey
  cases bucket with
  | none => simp
  | some b =>
    rw [Group.collect, Group.collect, foldl_append]
    rfl

theorem textKey_injective {keys : List String} {bucket : Option Int} {k k' : GroupKey}
    (hlen : k.1.length = keys.length) (hlen' : k'.1.length = keys.length)
    (hnone : bucket = none → k.2 = k'.2)
    (h : textKey keys bucket k = textKey keys bucket k') : k = k' := by
  have hzip : (keys.zip k.1).length = (keys.zip k'.1).length := by
    rw [length_zip, length_zip, hlen, hlen']
  obtain ⟨hcolumns, hbucket⟩ := append_inj h hzip
  refine Prod.ext ?_ ?_
  · have hsnd : (keys.zip k.1).map Prod.snd = k.1 := map_snd_zip (Nat.le_of_eq hlen)
    have hsnd' : (keys.zip k'.1).map Prod.snd = k'.1 := map_snd_zip (Nat.le_of_eq hlen')
    rw [← hsnd, hcolumns, hsnd']
  · cases bucket with
    | none => exact hnone rfl
    | some b =>
      have htext : k.2.map toString = k'.2.map toString := by simpa using hbucket
      exact Option.map_injective (fun _ _ => Int.repr_injective) htext

/-! ## Groups of workflows -/

variable {q : WorkflowAggregateQuery} {g : Memory.Inner} {db : Db} {w : WorkflowStatus}
  {r : StatusRow}

theorem aggPasses_eq (h : RowMirrors w r) (hpre : q.workflowIdPrefix = none) :
    aggPasses q r = Memory.aggPasses q w := by
  unfold aggPasses Memory.aggPasses
  rw [h.status, h.name, h.appVersion, h.executorId, h.queueName, h.createdAt, h.completedAtMs,
    h.startedAtMs, hpre]
  rfl

/-- The rows that are counted. -/
def counted (q : WorkflowAggregateQuery) (db : Db) : List StatusRow :=
  db.workflowStatus.values.filter (aggPasses q)

theorem exists_counted_pairs (h : Mirrors g db) (hpre : q.workflowIdPrefix = none) :
    ∃ pairs : List (WorkflowStatus × StatusRow),
      Memory.counted q g = pairs.map Prod.fst ∧ (counted q db).Perm (pairs.map Prod.snd) ∧
      ∀ p ∈ pairs, RowMirrors p.1 p.2 := by
  obtain ⟨pairs, hleft, hright, hrel⟩ := h.exists_row_pairs
  refine ⟨pairs.filter fun p => Memory.aggPasses q p.1, ?_, ?_, fun p hp =>
    hrel p (mem_filter.mp hp).1⟩
  · rw [Memory.counted, hleft, filter_map]
    rfl
  · refine (hright.filter _).trans (List.Perm.of_eq ?_)
    rw [filter_map]
    refine congrArg _ (filter_congr fun p hp => ?_)
    exact aggPasses_eq (hrel p hp) hpre

/-- The aggregate of a group of rows, by the entries of its map. -/
def aggregate (q : WorkflowAggregateQuery) (key : List (String × Option String))
    (rows : List StatusRow) : WorkflowAggregate :=
  { rowToAggregate q ([], none) rows with group := .collect key }

theorem eq_nil_iff_of_perm {α β : Type} {l : List α} {m : List β} {f : β → α}
    (h : l.Perm (m.map f)) : l = [] ↔ m = [] := by
  rw [← length_eq_zero_iff, h.length_eq, length_map, length_eq_zero_iff]

theorem max?_congr {l l' : List Int} (h : l.Perm l') : l.max? = l'.max? := by
  refine Option.ext fun m => ?_
  rw [max?_eq_some_iff, max?_eq_some_iff]
  simp only [h.mem_iff]

theorem min?_congr {l l' : List Int} (h : l.Perm l') : l.min? = l'.min? := by
  refine Option.ext fun m => ?_
  rw [min?_eq_some_iff, min?_eq_some_iff]
  simp only [h.mem_iff]

/-- An aggregate does not depend on the order of the rows. -/
theorem aggregate_congr {rows rows' : List StatusRow} (h : rows.Perm rows')
    (key : List (String × Option String)) : aggregate q key rows = aggregate q key rows' := by
  unfold aggregate rowToAggregate readMax
  rw [h.length_eq, min?_congr (h.map _), max?_congr (h.filterMap _), max?_congr (h.filterMap _)]

/-- The key of the group of a row, as the entries of its map. -/
def rowKey (q : WorkflowAggregateQuery) : StatusRow → List (String × Option String) :=
  textKey (q.enabledColumns.map Dimension.key) q.bucket ∘ aggKey q

theorem rowKey_eq (h : RowMirrors w r) : rowKey q r = Memory.aggKey q w := by
  have hcolumn : column r = Memory.dimension w := by
    funext d
    cases d <;> simp only [column, Memory.dimension, h.status, h.name, h.queueName, h.executorId,
      h.appVersion]
  unfold rowKey textKey aggKey Memory.aggKey
  rw [Function.comp_apply, hcolumn, h.createdAt, zip_map']
  cases q.bucket <;> rfl

theorem mem_getWorkflowAggregates (hlimit : q.limit = none)
    (hgrouped : ¬(q.enabledColumns = [] ∧ q.bucket = none)) : ∃ out,
    (getWorkflowAggregates q db).1 = .ok out ∧ ∀ a, a ∈ out ↔
      a ∈ (Grouping.groups (rowKey q) (counted q db)).map fun grp => aggregate q grp.1 grp.2 := by
  have hrow (k : GroupKey) (rows : List StatusRow) : rowToAggregate q k rows =
      aggregate q (textKey (q.enabledColumns.map Dimension.key) q.bucket k) rows := by
    unfold aggregate rowToAggregate
    rw [groupOf_eq]
  refine ⟨(Grouping.groups (aggKey q) (counted q db)).map fun grp => rowToAggregate q grp.1 grp.2,
    ?_, fun a => ?_⟩
  · unfold getWorkflowAggregates
    rw [if_neg (by simpa using hgrouped), hlimit]
    rfl
  · simp only [hrow]
    refine Grouping.mem_map_groups_comp fun r _ r' _ heq => ?_
    refine textKey_injective (by simp [aggKey]) (by simp [aggKey]) (fun hnone => ?_) heq
    unfold aggKey
    rw [hnone]
    rfl

/-- The maximum of the differences, wrapped around, is the one the database reads. -/
def SameMax (differences : List Int) : Prop := (differences.map i64).max? = readMax differences

/-- The groups of one set of rows are shown alike, if their maxima are. -/
theorem aggregate_eq_iff {pairs : List (WorkflowStatus × StatusRow)}
    (hrel : ∀ p ∈ pairs, RowMirrors p.1 p.2) (key : List (String × Option String)) :
    Memory.aggregate q key (pairs.map Prod.fst) = aggregate q key (pairs.map Prod.snd) ↔
      (q.selectMaxQueueWaitMs = true →
        SameMax ((pairs.map Prod.fst).filterMap (Memory.delay (·.startedAtMs)))) ∧
      (q.selectMaxTotalLatencyMs = true →
        SameMax ((pairs.map Prod.fst).filterMap (Memory.delay (·.completedAtMs)))) := by
  have hcreated : (pairs.map Prod.snd).map (·.createdAt) =
      (pairs.map Prod.fst).map (·.createdAt.timestampMillis) := by
    rw [List.map_map, List.map_map]
    exact map_congr_left fun p hp => (hrel p hp).createdAt
  have hdiff (column : StatusRow → Option Int) (time : WorkflowStatus → Option Int)
      (hsame : ∀ p ∈ pairs, column p.2 = time p.1) :
      (pairs.map Prod.snd).filterMap (fun r => difference (column r) (some r.createdAt)) =
        (pairs.map Prod.fst).filterMap (Memory.delay time) := by
    rw [filterMap_map, filterMap_map]
    refine filterMap_congr fun p hp => ?_
    simp only [Function.comp_apply, Memory.delay, difference, hsame p hp, (hrel p hp).createdAt]
    cases time p.1 <;> rfl
  have hwait : Memory.queueWait = fun w : WorkflowStatus =>
    w.startedAtMs.map fun s => i64 (s - w.createdAt.timestampMillis) := rfl
  have hlatency : Memory.totalLatency = fun w : WorkflowStatus =>
    w.completedAtMs.map fun c => i64 (c - w.createdAt.timestampMillis) := rfl
  unfold Memory.aggregate aggregate rowToAggregate Memory.AggAcc.toAggregate SameMax
  rw [Memory.foldl_add, hcreated, hdiff _ (·.startedAtMs) fun p hp => (hrel p hp).startedAtMs,
    hdiff _ (·.completedAtMs) fun p hp => (hrel p hp).completedAtMs,
    ← Memory.filterMap_i64 (·.startedAtMs), ← Memory.filterMap_i64 (·.completedAtMs),
      hwait, hlatency]
  simp only [WorkflowAggregate.mk.injEq, length_map, true_and]
  refine and_congr ?_ ?_
  · cases q.selectMaxQueueWaitMs <;> simp
  · cases q.selectMaxTotalLatencyMs <;> simp

/-- **A group has the same rows in both backends**, and is shown alike if its maxima are. -/
theorem groups_alike (h : Mirrors g db) (hpre : q.workflowIdPrefix = none)
    (key : List (String × Option String)) :
    (Grouping.members (Memory.aggKey q) (Memory.counted q g) key = [] ↔
      Grouping.members (rowKey q) (counted q db) key = []) ∧
    (Memory.aggregate q key (Grouping.members (Memory.aggKey q) (Memory.counted q g) key) =
        aggregate q key (Grouping.members (rowKey q) (counted q db) key) ↔
      (q.selectMaxQueueWaitMs = true → SameMax (Memory.groupDelays q g (·.startedAtMs) key)) ∧
      (q.selectMaxTotalLatencyMs = true →
        SameMax (Memory.groupDelays q g (·.completedAtMs) key))) := by
  obtain ⟨pairs, hleft, hright, hrel⟩ := exists_counted_pairs h hpre
  have hmembers : Grouping.members (Memory.aggKey q) (Memory.counted q g) key =
      (Grouping.members (Memory.aggKey q ∘ Prod.fst) pairs key).map Prod.fst := by
    rw [hleft, Grouping.members_map]
  have hmembers' : (Grouping.members (rowKey q) (counted q db) key).Perm
      ((Grouping.members (Memory.aggKey q ∘ Prod.fst) pairs key).map Prod.snd) := by
    refine (Grouping.members_perm hright key).trans (List.Perm.of_eq ?_)
    rw [Grouping.members_map]
    refine congrArg _ (filter_congr fun p hp => ?_)
    simp only [Function.comp_apply, rowKey_eq (hrel p hp)]
  constructor
  · rw [hmembers, map_eq_nil_iff, eq_nil_iff_of_perm hmembers']
  · rw [aggregate_congr hmembers' key, Memory.groupDelays, Memory.groupDelays, hmembers]
    exact aggregate_eq_iff (fun p hp => hrel p (Grouping.mem_members.mp hp).1) key

end Sqlite

/-- A query the engine accepts, with no limit and no prefix. -/
structure WorkflowAggregateQuery.Comparable (q : WorkflowAggregateQuery) : Prop where
  grouped : q.isEmpty = false
  selects : q.noSelect = false
  unlimited : q.limit = none
  unprefixed : q.workflowIdPrefix = none

/-- **Both backends answer, with the same groups of workflows.** -/
def WorkflowsAgree (q : WorkflowAggregateQuery) (g : Memory.Inner) (db : Sqlite.Db) : Prop :=
  ∃ out out', (Memory.getWorkflowAggregates q g).1 = .ok out ∧
    (Sqlite.getWorkflowAggregates q db).1 = .ok out' ∧ ∀ a, a ∈ out ↔ a ∈ out'

section

variable {q : WorkflowAggregateQuery} {g : Memory.Inner} {db : Sqlite.Db}

theorem noneWraps_iff_sameMax (time : WorkflowStatus → Option Int) :
    Memory.NoneWraps q g time ↔ ∀ key, Sqlite.SameMax (Memory.groupDelays q g time key) := by
  unfold Sqlite.SameMax
  rw [Memory.noneWraps_iff]
  constructor
  · intro h key
    rw [max?_i64_eq_readMax_iff (List.Subset.refl _)]
    by_cases hnil : Grouping.members (Memory.aggKey q) (Memory.counted q g) key = []
    · simp [Memory.groupDelays, hnil]
    · obtain ⟨w, hw⟩ := exists_mem_of_ne_nil _ hnil
      obtain ⟨hcounted, rfl⟩ := Grouping.mem_members.mp hw
      exact max?_i64_eq_max?_iff.mp (h w (Memory.mem_counted.mp hcounted))
  · intro h w _
    exact max?_i64_eq_max?_iff.mpr ((max?_i64_eq_readMax_iff (List.Subset.refl _)).mp (h _))

/-- **The aggregates of workflows agree exactly if there is something to group by and no delay that
is asked for wraps around.** -/
theorem workflowsAgree_iff (h : Mirrors g db) (hq : q.Comparable) :
    WorkflowsAgree q g db ↔ ¬(q.enabledColumns = [] ∧ q.bucket = none) ∧
      (q.selectMaxQueueWaitMs = true → Memory.NoneWraps q g (·.startedAtMs)) ∧
      (q.selectMaxTotalLatencyMs = true → Memory.NoneWraps q g (·.completedAtMs)) := by
  by_cases hgrouped : q.enabledColumns = [] ∧ q.bucket = none
  · refine ⟨fun hagree => ?_, fun hcond => absurd hgrouped hcond.1⟩
    obtain ⟨out, out', -, hout', -⟩ := hagree
    unfold Sqlite.getWorkflowAggregates at hout'
    rw [hgrouped.1, hgrouped.2] at hout'
    cases hout'
  obtain ⟨out, hout, hperm⟩ := Memory.getWorkflowAggregates_perm q g hq.unlimited
  obtain ⟨out', hout', hmem'⟩ := @Sqlite.mem_getWorkflowAggregates q db hq.unlimited hgrouped
  have hagree : WorkflowsAgree q g db ↔ ∀ a, a ∈ out ↔ a ∈ out' := by
    constructor
    · rintro ⟨out₁, out₂, h₁, h₂, hsame⟩
      cases Except.ok.inj (hout.symm.trans h₁)
      cases Except.ok.inj (hout'.symm.trans h₂)
      exact hsame
    · exact fun hsame => ⟨out, out', hout, hout', hsame⟩
  -- The map of a group tells its key.
  have htell : ∀ w ∈ Memory.counted q g, ∀ r ∈ Sqlite.counted q db, ∀ l l',
      Memory.aggregate q (Memory.aggKey q w) l = Sqlite.aggregate q (Sqlite.rowKey q r) l' →
        Memory.aggKey q w = Sqlite.rowKey q r := by
    intro w _ r hr l l' heq
    obtain ⟨pairs, -, hright, hrel⟩ := Sqlite.exists_counted_pairs h hq.unprefixed
    obtain ⟨p, hp, rfl⟩ := mem_map.mp (hright.mem_iff.mp hr)
    rw [Sqlite.rowKey_eq (hrel p hp)] at heq ⊢
    exact Group.collect_inj ((Memory.keys_aggKey q w).trans (Memory.keys_aggKey q p.1).symm)
      (Memory.nodup_aggKey q w) (congrArg WorkflowAggregate.group heq)
  rw [hagree]
  simp only [hperm.mem_iff, hmem']
  rw [Grouping.shown_alike_iff htell, noneWraps_iff_sameMax, noneWraps_iff_sameMax]
  constructor
  · intro hall
    have hmaxima (key : List (String × Option String)) : (q.selectMaxQueueWaitMs = true →
          Sqlite.SameMax (Memory.groupDelays q g (·.startedAtMs) key)) ∧
        (q.selectMaxTotalLatencyMs = true →
          Sqlite.SameMax (Memory.groupDelays q g (·.completedAtMs) key)) := by
      by_cases hnil : Grouping.members (Memory.aggKey q) (Memory.counted q g) key = []
      · rw [Memory.groupDelays, Memory.groupDelays, hnil]
        exact ⟨fun _ => rfl, fun _ => rfl⟩
      · exact (Sqlite.groups_alike h hq.unprefixed key).2.mp ((hall key).2 hnil)
    exact ⟨hgrouped, fun hs key => (hmaxima key).1 hs, fun hs key => (hmaxima key).2 hs⟩
  · rintro ⟨-, hwait, hlatency⟩ key
    obtain ⟨hnil, hshown⟩ := Sqlite.groups_alike h hq.unprefixed key
    exact ⟨hnil, fun _ => hshown.mpr ⟨fun hs => hwait hs key, fun hs => hlatency hs key⟩⟩

end

end Durare
