import Durare.Operations.System
import Durare.Store.Aggregates
import Mathlib.Algebra.BigOperators.Ring.Finset
import Mathlib.Order.Bounds.Basic

/-!
# Queries/Partition — the groups of an aggregate partition the workflows

The aggregates of the in-memory backend are one fold over its rows.  The groups it returns have
different keys, every workflow that is counted is in one of them, and the number and the earliest
creation time of a group are those of its workflows.

Not so the longest wait and the longest latency: they are maxima of 64-bit differences, and times
are read from an import as they come.  `partitions_iff`: the maxima are exact as well exactly if no
difference is above the 64-bit range, and one below it is not larger, wrapped around, than another
of its group.
-/

namespace Durare

open List Option

/-! ## Maps -/

theorem Group.lookup_insert (k k' : String) (v : Option String) (m : Group) :
    (Group.insert k v m).lookup k' = if k' = k then some v else m.lookup k' := by
  induction m with
  | nil => rw [Group.insert, lookup_cons_ite]
  | cons e m ih =>
    obtain ⟨k₁, v₁⟩ := e
    unfold Group.insert
    by_cases hlt : k < k₁
    · rw [if_pos hlt, lookup_cons_ite]
    · rw [if_neg hlt]
      by_cases heq : k = k₁
      · subst heq
        rw [if_pos rfl, lookup_cons_ite, lookup_cons_ite]
        split <;> rfl
      · rw [if_neg heq, lookup_cons_ite, lookup_cons_ite, ih]
        by_cases h : k' = k
        · subst h
          rw [if_neg heq, if_pos rfl, if_pos rfl]
        · rw [if_neg h, if_neg h]

variable {entries : List (String × Option String)}

/-- A map has the entries it was collected from, if no two of them have one key. -/
theorem Group.lookup_collect (h : (entries.map Prod.fst).Nodup) (k : String) :
    (Group.collect entries).lookup k = entries.lookup k := by
  induction entries using List.reverseRecOn with
  | nil => rfl
  | append_singleton entries e ih =>
    rw [map_append, nodup_append] at h
    obtain ⟨hentries, -, hnew⟩ := h
    have hcollect : Group.collect (entries ++ [e]) =
        Group.insert e.1 e.2 (Group.collect entries) := by
      rw [Group.collect, foldl_append]
      rfl
    rw [hcollect, Group.lookup_insert, ih hentries, lookup_append]
    by_cases hk : k = e.1
    · subst hk
      have hnone : entries.lookup e.1 = none := by
        rw [lookup_eq_none_iff]
        intro e' he'
        have hne := hnew e'.1 (mem_map_of_mem he') e.1 (mem_singleton_self _)
        exact bne_iff_ne.mpr hne.symm
      rw [if_pos rfl, hnone, lookup_cons_ite, if_pos rfl]
      rfl
    · rw [if_neg hk, lookup_cons_ite, if_neg hk, lookup_nil, or_none]

/-- **Entries under the same keys that are collected into one map are the same.** -/
theorem Group.collect_inj {entries' : List (String × Option String)}
    (hkeys : entries.map Prod.fst = entries'.map Prod.fst) (hnodup : (entries.map Prod.fst).Nodup)
    (h : Group.collect entries = Group.collect entries') : entries = entries' := by
  -- Such a list is given by its keys and what is looked up in it.
  have hlist {l : List (String × Option String)} (hl : (l.map Prod.fst).Nodup) :
      l = (l.map Prod.fst).map fun k => (k, (l.lookup k).getD none) := by
    rw [List.map_map]
    refine (map_id l).symm.trans (map_congr_left fun e he => ?_)
    rw [Function.comp_apply, (lookup_eq_some_iff_mem hl).mpr he]
    rfl
  have hlookup (k : String) : entries.lookup k = entries'.lookup k := by
    rw [← Group.lookup_collect hnodup, h, Group.lookup_collect (hkeys ▸ hnodup)]
  calc entries = (entries.map Prod.fst).map fun k => (k, (entries.lookup k).getD none) :=
        hlist hnodup
    _ = (entries'.map Prod.fst).map fun k => (k, (entries'.lookup k).getD none) := by
        simp only [hkeys, hlookup]
    _ = entries' := (hlist (hkeys ▸ hnodup)).symm

/-! ## Maxima of 64-bit differences -/

/-- `i64::MAX` -/
def I64_MAX : Int := 0x7fffffffffffffff

/-- **When the maximum of wrapped differences is the maximum**: the differences `ds`, some of `ms`,
are in the range or below it, and none of `ms` is larger when it is wrapped around. -/
theorem max?_i64_eq_readMax_iff {ms ds : List Int} (hsub : ds ⊆ ms) :
    (ms.map i64).max? = Sqlite.readMax ds ↔
      (∀ d ∈ ds, d ≤ I64_MAX) ∧ ∀ m ∈ ms, ∃ d ∈ ds, i64 m ≤ d := by
  unfold Sqlite.readMax
  constructor
  · intro heq
    cases hms : (ms.map i64).max? with
    | none =>
      have hnil : ms = [] := map_eq_nil_iff.mp (max?_eq_none_iff.mp hms)
      subst hnil
      exact ⟨fun d hd => absurd (hsub hd) not_mem_nil, fun m hm => absurd hm not_mem_nil⟩
    | some w =>
      rw [hms, eq_comm, filter_eq_some_iff] at heq
      obtain ⟨hds, hfits⟩ := heq
      obtain ⟨hwmem, hwmax⟩ := max?_eq_some_iff.mp hds
      obtain ⟨-, hmax⟩ := max?_eq_some_iff.mp hms
      have hlt : w < 0x8000000000000000 := by simpa using (Bool.and_eq_true_iff.mp hfits).2
      refine ⟨fun d hd => ?_, fun m hm => ⟨w, hwmem, hmax _ (mem_map_of_mem hm)⟩⟩
      have hle := hwmax d hd
      unfold I64_MAX
      omega
  · rintro ⟨hle, hcover⟩
    cases hds : ds.max? with
    | none =>
      have hnil : ds = [] := max?_eq_none_iff.mp hds
      subst hnil
      have hms : ms = [] := eq_nil_iff_forall_not_mem.mpr fun m hm => by
        obtain ⟨d, hd, -⟩ := hcover m hm
        cases hd
      rw [hms]
      rfl
    | some w =>
      obtain ⟨hwmem, hwmax⟩ := max?_eq_some_iff.mp hds
      -- The largest one is not below the range, as something in the range is not above it.
      obtain ⟨d, hd, hwd⟩ := hcover w (hsub hwmem)
      have hfits : FitsI64 w := by
        have hlow := (fitsI64_i64 w).1
        have hdw := hwmax d hd
        have hhigh := hle w hwmem
        unfold I64_MAX at hhigh
        unfold FitsI64
        omega
      have hms : (ms.map i64).max? = some w := by
        refine max?_eq_some_iff.mpr ⟨?_, fun x hx => ?_⟩
        · exact mem_map.mpr ⟨w, hsub hwmem, i64_of_fits hfits⟩
        · obtain ⟨m, hm, rfl⟩ := mem_map.mp hx
          obtain ⟨d, hd, hmd⟩ := hcover m hm
          exact Int.le_trans hmd (hwmax d hd)
      rw [hms, filter_some, if_pos (by simpa [FitsI64] using hfits)]

/-- The same without a database that reads them. -/
theorem max?_i64_eq_max?_iff {ms : List Int} :
    (ms.map i64).max? = ms.max? ↔
      (∀ m ∈ ms, m ≤ I64_MAX) ∧ ∀ m ∈ ms, ∃ m' ∈ ms, i64 m ≤ m' := by
  rw [← max?_i64_eq_readMax_iff (List.Subset.refl ms), Sqlite.readMax]
  constructor
  · intro heq
    rw [heq]
    cases hms : ms.max? with
    | none => rfl
    | some w =>
      obtain ⟨m, -, rfl⟩ := mem_map.mp (max?_eq_some_iff.mp (heq.trans hms)).1
      rw [filter_some, if_pos (by simpa [FitsI64] using fitsI64_i64 m)]
  · intro heq
    cases hms : ms.max? with
    | none =>
      rw [max?_eq_none_iff.mp hms]
      rfl
    | some w =>
      rw [hms, filter_some] at heq
      split at heq
      · exact heq
      · -- Only the maximum of no differences is missing.
        rw [map_eq_nil_iff.mp (max?_eq_none_iff.mp heq)] at hms
        cases hms

/-! ## What the groups are to be -/

/-- The workflows are grouped by the dimension. -/
def WorkflowAggregateQuery.groupsBy (q : WorkflowAggregateQuery) : Dimension → Bool
  | .status => q.byStatus
  | .name => q.byName
  | .queueName => q.byQueueName
  | .executorId => q.byExecutorId
  | .applicationVersion => q.byAppVersion

/-- All four aggregates are selected. -/
structure WorkflowAggregateQuery.SelectsAll (q : WorkflowAggregateQuery) : Prop where
  count : q.selectCount = true
  minCreatedAt : q.selectMinCreatedAt = true
  maxQueueWaitMs : q.selectMaxQueueWaitMs = true
  maxTotalLatencyMs : q.selectMaxTotalLatencyMs = true

/-- The smallest number of a set, if there is one. -/
def IsMinOf (S : Set Int) : Option Int → Prop
  | none => S = ∅
  | some m => IsLeast S m

/-- The largest number of a set, if there is one. -/
def IsMaxOf (S : Set Int) : Option Int → Prop
  | none => S = ∅
  | some m => IsGreatest S m

theorem isMinOf_min? {S : Set Int} {l : List Int} (h : ∀ t, t ∈ S ↔ t ∈ l) : IsMinOf S l.min? := by
  cases hmin : l.min? with
  | none =>
    have hnil := min?_eq_none_iff.mp hmin
    exact Set.eq_empty_iff_forall_notMem.mpr fun t ht => not_mem_nil (hnil ▸ (h t).mp ht)
  | some m =>
    obtain ⟨hmem, hle⟩ := min?_eq_some_iff.mp hmin
    exact ⟨(h m).mpr hmem, fun t ht => hle t ((h t).mp ht)⟩

theorem isMaxOf_iff {S : Set Int} {l : List Int} (h : ∀ t, t ∈ S ↔ t ∈ l) {best : Option Int} :
    IsMaxOf S best ↔ best = l.max? := by
  cases best with
  | none =>
    rw [eq_comm, max?_eq_none_iff, eq_nil_iff_forall_not_mem]
    exact Set.eq_empty_iff_forall_notMem.trans
      (forall_congr' fun t => not_congr (h t))
  | some m =>
    rw [eq_comm, max?_eq_some_iff, ← h m]
    exact and_congr_right' (forall_congr' fun t => imp_congr_left (h t))

namespace Memory

section

variable (q : WorkflowAggregateQuery) (g : Inner)

/-- The group has the values of the workflow at the enabled dimensions, and its bucket. -/
structure Belongs (a : WorkflowAggregate) (w : WorkflowStatus) : Prop where
  dimensions : ∀ d, q.groupsBy d = true → a.group.lookup d.key = some (dimension w d)
  bucket : ∀ b, q.bucket = some b → a.group.lookup "time_bucket" =
    some (some (toString (bucketStart b w.createdAt.timestampMillis)))

/-- The workflow is in the store, and passes the filters. -/
def Considered (w : WorkflowStatus) : Prop :=
  (∃ id, g.workflows.lookup id = some w) ∧ aggPasses q w = true

/-- When the workflows of a group were created. -/
def creations (a : WorkflowAggregate) : Set Int :=
  { t | ∃ w, Considered q g w ∧ Belongs q a w ∧ t = w.createdAt.timestampMillis }

/-- How long after its creation each workflow of a group reached a time, if it did. -/
def delays (time : WorkflowStatus → Option Int) (a : WorkflowAggregate) : Set Int :=
  { d | ∃ w t, Considered q g w ∧ Belongs q a w ∧ time w = some t ∧
    d = t - w.createdAt.timestampMillis }

/-- **The groups partition the workflows that are counted**, and say of each part how large it is,
when its first workflow was created, and the longest wait and the longest latency in it. -/
structure Partitions (out : List WorkflowAggregate) : Prop where
  distinct : (out.map (·.group)).Nodup
  covered : ∀ w, Considered q g w → ∃! a, a ∈ out ∧ Belongs q a w
  counts : ∀ a ∈ out, ∃ ids : Finset String, a.count = some (ids.card : Int) ∧
    ∀ id, id ∈ ids ↔ ∃ w, g.workflows.lookup id = some w ∧ aggPasses q w = true ∧ Belongs q a w
  total : ∃ ids : Finset String, (out.map fun a => a.count.getD 0).sum = (ids.card : Int) ∧
    ∀ id, id ∈ ids ↔ ∃ w, g.workflows.lookup id = some w ∧ aggPasses q w = true
  earliest : ∀ a ∈ out, IsMinOf (creations q g a) a.minCreatedAt
  longestWait : ∀ a ∈ out, IsMaxOf (delays q g (·.startedAtMs) a) a.maxQueueWaitMs
  longestLatency : ∀ a ∈ out, IsMaxOf (delays q g (·.completedAtMs) a) a.maxTotalLatencyMs

/-- No delay is above the 64-bit range, and one below it is not larger, wrapped around, than a delay
of its group. -/
def NoneWraps (time : WorkflowStatus → Option Int) : Prop :=
  ∀ w t, Considered q g w → time w = some t → t - w.createdAt.timestampMillis ≤ I64_MAX ∧
    ∃ w' t', Considered q g w' ∧ aggKey q w' = aggKey q w ∧ time w' = some t' ∧
      i64 (t - w.createdAt.timestampMillis) ≤ t' - w'.createdAt.timestampMillis

end

variable {q : WorkflowAggregateQuery} {g : Inner} {w : WorkflowStatus}

/-! ## Keys -/

theorem mem_enabledColumns {d : Dimension} : d ∈ q.enabledColumns ↔ q.groupsBy d = true := by
  simp only [WorkflowAggregateQuery.enabledColumns, AGG_DIMENSIONS, List.mem_map, List.mem_filter]
  constructor
  · rintro ⟨⟨d', on⟩, ⟨hmem, hon⟩, rfl⟩
    simp only [zip_cons_cons, zip_nil_left, mem_cons, Prod.mk.injEq,
      not_mem_nil, or_false] at hmem
    rcases hmem with ⟨rfl, rfl⟩ | ⟨rfl, rfl⟩ | ⟨rfl, rfl⟩ | ⟨rfl, rfl⟩ | ⟨rfl, rfl⟩ <;> exact hon
  · intro hd
    refine ⟨(d, true), ⟨?_, rfl⟩, rfl⟩
    cases d <;> simp only [WorkflowAggregateQuery.groupsBy] at hd <;> simp [hd]

theorem nodup_enabledColumns (q : WorkflowAggregateQuery) :
    (q.enabledColumns.map Dimension.key ++ ["time_bucket"]).Nodup := by
  have hsub : q.enabledColumns.Sublist AGG_DIMENSIONS := filter_sublist.map Prod.fst
  have hall : (AGG_DIMENSIONS.map Dimension.key ++ ["time_bucket"]).Nodup := by decide
  exact hall.sublist ((hsub.map _).append (List.Sublist.refl _))

theorem keys_aggKey (q : WorkflowAggregateQuery) (w : WorkflowStatus) :
    (aggKey q w).map Prod.fst = q.enabledColumns.map Dimension.key ++
      if q.bucket.isSome then ["time_bucket"] else [] := by
  rw [aggKey, map_append, List.map_map]
  cases q.bucket <;> rfl

theorem nodup_aggKey (q : WorkflowAggregateQuery) (w : WorkflowStatus) :
    ((aggKey q w).map Prod.fst).Nodup := by
  rw [keys_aggKey]
  refine (nodup_enabledColumns q).sublist ((List.Sublist.refl _).append ?_)
  cases q.bucket with
  | none => exact nil_sublist _
  | some b => exact List.Sublist.refl _

variable {a : WorkflowAggregate}

theorem belongs_iff {w' : WorkflowStatus} (ha : a.group = Group.collect (aggKey q w')) :
    Belongs q a w ↔ aggKey q w = aggKey q w' := by
  have hdim (v : WorkflowStatus) {d : Dimension} (hd : q.groupsBy d = true) :
      (Group.collect (aggKey q v)).lookup d.key = some (dimension v d) := by
    rw [Group.lookup_collect (nodup_aggKey q v), lookup_eq_some_iff_mem (nodup_aggKey q v)]
    exact mem_append_left _ (mem_map.mpr ⟨d, mem_enabledColumns.mpr hd, rfl⟩)
  have hbucket (v : WorkflowStatus) {b : Int} (hb : q.bucket = some b) :
      (Group.collect (aggKey q v)).lookup "time_bucket" =
        some (some (toString (bucketStart b v.createdAt.timestampMillis))) := by
    rw [Group.lookup_collect (nodup_aggKey q v), lookup_eq_some_iff_mem (nodup_aggKey q v)]
    refine mem_append_right _ ?_
    rw [hb]
    exact mem_singleton_self _
  constructor
  · intro h
    have hcolumns : (q.enabledColumns.map fun d => (d.key, dimension w d)) =
        q.enabledColumns.map fun d => (d.key, dimension w' d) := by
      refine map_congr_left fun d hd => ?_
      have hon := mem_enabledColumns.mp hd
      have hvalue := h.dimensions d hon
      rw [ha, hdim w' hon] at hvalue
      rw [Option.some.inj hvalue]
    have hentry : bucketEntry q.bucket (some w.createdAt.timestampMillis) =
        bucketEntry q.bucket (some w'.createdAt.timestampMillis) := by
      cases hb : q.bucket with
      | none => rfl
      | some b =>
        have hvalue := h.bucket b hb
        rw [ha, hbucket w' hb] at hvalue
        simp only [bucketEntry, map_some, Option.some.inj (Option.some.inj hvalue)]
    rw [aggKey, hcolumns, hentry, aggKey]
  · intro hkey
    rw [← hkey] at ha
    exact ⟨fun d hd => ha ▸ hdim w hd, fun b hb => ha ▸ hbucket w hb⟩

/-! ## The fold -/

theorem keepMax_eq_merge (best found : Option Int) : keepMax best found = best.merge max found := by
  cases best <;> cases found <;> rfl

theorem foldl_add_eq (rows : List WorkflowStatus) (acc : AggAcc) :
    rows.foldl AggAcc.add acc =
      { count := rows.foldl (fun n _ => n + 1) acc.count
        minCreated := rows.foldl (fun best w =>
          best.merge min (some w.createdAt.timestampMillis)) acc.minCreated
        maxQueueWait := rows.foldl (fun best w => best.merge max (queueWait w)) acc.maxQueueWait
        maxTotalLatency :=
          rows.foldl (fun best w => best.merge max (totalLatency w)) acc.maxTotalLatency } := by
  induction rows generalizing acc with
  | nil => rfl
  | cons w rows ih =>
    have hmin : (acc.add w).minCreated =
        acc.minCreated.merge min (some w.createdAt.timestampMillis) := by
      cases h : acc.minCreated <;> simp [AggAcc.add, h]
    rw [foldl_cons, ih, hmin]
    simp only [foldl_cons, AggAcc.add, keepMax_eq_merge]

/-- **What the fold finds out about a group.** -/
theorem foldl_add (rows : List WorkflowStatus) : rows.foldl AggAcc.add {} =
    { count := rows.length
      minCreated := (rows.map (·.createdAt.timestampMillis)).min?
      maxQueueWait := (rows.filterMap queueWait).max?
      maxTotalLatency := (rows.filterMap totalLatency).max? } := by
  have hcount (n : Int) : rows.foldl (fun n _ => n + 1) n = n + rows.length := by
    induction rows generalizing n with
    | nil => simp
    | cons w rows ih =>
      rw [foldl_cons, ih, length_cons]
      omega
  have hmap : rows.filterMap (fun w => some w.createdAt.timestampMillis) =
      rows.map (·.createdAt.timestampMillis) :=
    congrFun filterMap_eq_map rows
  rw [foldl_add_eq, hcount, Grouping.foldl_merge_min, Grouping.foldl_merge_max,
    Grouping.foldl_merge_max, hmap]
  simp

/-- The workflows that are counted. -/
def counted (q : WorkflowAggregateQuery) (g : Inner) : List WorkflowStatus :=
  g.workflows.values.filter (aggPasses q)

theorem mem_counted : w ∈ counted q g ↔ Considered q g w := by
  rw [counted, mem_filter, AList.mem_values, Considered]

/-- The aggregate of a group of workflows. -/
def aggregate (q : WorkflowAggregateQuery) (key : List (String × Option String))
    (rows : List WorkflowStatus) : WorkflowAggregate :=
  (rows.foldl AggAcc.add {}).toAggregate q key

/-- The answer has one aggregate for each group. -/
theorem getWorkflowAggregates_perm (q : WorkflowAggregateQuery) (g : Inner) (hlimit : q.limit =
    none) : ∃ out, (getWorkflowAggregates q g).1 = .ok out ∧
      out.Perm ((Grouping.groups (aggKey q) (counted q g)).map fun grp =>
        aggregate q grp.1 grp.2) := by
  refine ⟨_, rfl, ?_⟩
  have hperm := (Grouping.accumulate_perm (aggKey q) AggAcc.add {} (counted q g)).map fun e =>
    AggAcc.toAggregate q e.1 e.2
  rw [List.map_map, List.map_map] at hperm
  rw [hlimit]
  exact (mergeSort_perm _ _).trans hperm

theorem mem_aggregates {out : List WorkflowAggregate}
    (hperm : out.Perm ((Grouping.groups (aggKey q) (counted q g)).map fun grp =>
      aggregate q grp.1 grp.2)) {a : WorkflowAggregate} :
    a ∈ out ↔ ∃ w, Considered q g w ∧
      a = aggregate q (aggKey q w) (Grouping.members (aggKey q) (counted q g) (aggKey q w)) := by
  rw [hperm.mem_iff, List.mem_map]
  constructor
  · rintro ⟨⟨k, l⟩, hgrp, rfl⟩
    obtain ⟨rfl, hne⟩ := Grouping.mem_groups.mp hgrp
    obtain ⟨w, hw⟩ := exists_mem_of_ne_nil _ hne
    obtain ⟨hcounted, rfl⟩ := Grouping.mem_members.mp hw
    exact ⟨w, mem_counted.mp hcounted, rfl⟩
  · rintro ⟨w, hw, rfl⟩
    have hmem : w ∈ Grouping.members (aggKey q) (counted q g) (aggKey q w) :=
      Grouping.mem_members.mpr ⟨mem_counted.mpr hw, rfl⟩
    exact ⟨(aggKey q w, _), Grouping.mem_groups.mpr ⟨rfl, ne_nil_of_mem hmem⟩, rfl⟩

/-! ## The groups partition the workflows -/

/-- How long after its creation a workflow reached a time. -/
def delay (time : WorkflowStatus → Option Int) (w : WorkflowStatus) : Option Int :=
  (time w).map fun t => t - w.createdAt.timestampMillis

theorem filterMap_i64 (time : WorkflowStatus → Option Int) (rows : List WorkflowStatus) :
    rows.filterMap (fun w => (time w).map fun t => i64 (t - w.createdAt.timestampMillis)) =
      (rows.filterMap (delay time)).map i64 := by
  rw [map_filterMap]
  refine filterMap_congr fun w _ => ?_
  rw [delay, Option.map_map]
  rfl

/-- The delays of the workflows that are counted under a key. -/
def groupDelays (q : WorkflowAggregateQuery) (g : Inner) (time : WorkflowStatus → Option Int)
    (key : List (String × Option String)) : List Int :=
  (Grouping.members (aggKey q) (counted q g) key).filterMap (delay time)

theorem mem_delays {time : WorkflowStatus → Option Int} (ha : a.group = Group.collect (aggKey q w))
    (d : Int) : d ∈ delays q g time a ↔ d ∈ groupDelays q g time (aggKey q w) := by
  simp only [delays, groupDelays, Set.mem_ofPred_eq, mem_filterMap, Grouping.mem_members,
    mem_counted, belongs_iff ha, delay, map_eq_some_iff]
  constructor
  · rintro ⟨v, t, hcounted, hkey, htime, rfl⟩
    exact ⟨v, ⟨hcounted, hkey⟩, t, htime, rfl⟩
  · rintro ⟨v, ⟨hcounted, hkey⟩, t, htime, rfl⟩
    exact ⟨v, t, hcounted, hkey, htime, rfl⟩

theorem mem_creations (ha : a.group = Group.collect (aggKey q w)) (t : Int) :
    t ∈ creations q g a ↔ t ∈ (Grouping.members (aggKey q) (counted q g) (aggKey q w)).map
      (·.createdAt.timestampMillis) := by
  simp only [creations, Set.mem_ofPred_eq, List.mem_map, Grouping.mem_members, mem_counted,
    belongs_iff ha]
  constructor
  · rintro ⟨v, hcounted, hkey, rfl⟩
    exact ⟨v, ⟨hcounted, hkey⟩, rfl⟩
  · rintro ⟨v, ⟨hcounted, hkey⟩, rfl⟩
    exact ⟨v, hcounted, hkey, rfl⟩

/-- The maxima of the wrapped delays are exact. -/
theorem noneWraps_iff (time : WorkflowStatus → Option Int) : NoneWraps q g time ↔
    ∀ w, Considered q g w → ((groupDelays q g time (aggKey q w)).map i64).max? =
      (groupDelays q g time (aggKey q w)).max? := by
  have hmem (w : WorkflowStatus) (d : Int) : d ∈ groupDelays q g time (aggKey q w) ↔
      ∃ v t, Considered q g v ∧ aggKey q v = aggKey q w ∧ time v = some t ∧
        t - v.createdAt.timestampMillis = d := by
    simp only [groupDelays, mem_filterMap, Grouping.mem_members, mem_counted, delay,
      map_eq_some_iff]
    constructor
    · rintro ⟨v, ⟨hcounted, hkey⟩, t, htime, hd⟩
      exact ⟨v, t, hcounted, hkey, htime, hd⟩
    · rintro ⟨v, t, hcounted, hkey, htime, hd⟩
      exact ⟨v, ⟨hcounted, hkey⟩, t, htime, hd⟩
  constructor
  · intro h w _
    rw [max?_i64_eq_max?_iff]
    refine ⟨fun d hd => ?_, fun d hd => ?_⟩
    · obtain ⟨v, t, hv, -, htime, rfl⟩ := (hmem w d).mp hd
      exact (h v t hv htime).1
    · obtain ⟨v, t, hv, hkey, htime, rfl⟩ := (hmem w d).mp hd
      obtain ⟨v', t', hv', hkey', htime', hle⟩ := (h v t hv htime).2
      exact ⟨_, (hmem w _).mpr ⟨v', t', hv', hkey'.trans hkey, htime', rfl⟩, hle⟩
  · intro h w t hw htime
    obtain ⟨hle, hcover⟩ := max?_i64_eq_max?_iff.mp (h w hw)
    have hself := (hmem w _).mpr ⟨w, t, hw, rfl, htime, rfl⟩
    obtain ⟨d, hd, hwrap⟩ := hcover _ hself
    obtain ⟨v, t', hv, hkey, htime', rfl⟩ := (hmem w d).mp hd
    exact ⟨hle _ hself, v, t', hv, hkey, htime', hwrap⟩

theorem exists_ids_of_group (w : WorkflowStatus) (ha : a.group = Group.collect (aggKey q w)) :
    ∃ ids : Finset String,
      ids.card = (Grouping.members (aggKey q) (counted q g) (aggKey q w)).length ∧
      ∀ id, id ∈ ids ↔
        ∃ v, g.workflows.lookup id = some v ∧ aggPasses q v = true ∧ Belongs q a v := by
  refine ⟨g.workflows.holders fun v => aggPasses q v && decide (aggKey q v = aggKey q w), ?_, ?_⟩
  · rw [AList.card_holders, Grouping.members, counted, List.filter_filter,
      ← countP_eq_length_filter]
    exact countP_congr fun v _ => by rw [Bool.and_comm]
  · intro id
    rw [AList.mem_holders]
    refine exists_congr fun v => and_congr_right fun _ => ?_
    rw [Bool.and_eq_true, decide_eq_true_iff, belongs_iff ha]

theorem aggregate_eq (hall : q.SelectsAll) (key : List (String × Option String))
    (rows : List WorkflowStatus) : aggregate q key rows =
      { group := .collect key
        count := some rows.length
        minCreatedAt := (rows.map (·.createdAt.timestampMillis)).min?
        maxQueueWaitMs := ((rows.filterMap (delay (·.startedAtMs))).map i64).max?
        maxTotalLatencyMs := ((rows.filterMap (delay (·.completedAtMs))).map i64).max? } := by
  rw [aggregate, foldl_add, AggAcc.toAggregate, hall.count, hall.minCreatedAt, hall.maxQueueWaitMs,
    hall.maxTotalLatencyMs, ← filterMap_i64 (·.startedAtMs), ← filterMap_i64 (·.completedAtMs)]
  rfl

section

variable {out : List WorkflowAggregate} (hall : q.SelectsAll)
  (hperm : out.Perm ((Grouping.groups (aggKey q) (counted q g)).map fun grp =>
    aggregate q grp.1 grp.2))

include hperm

theorem distinct_of_perm : (out.map (·.group)).Nodup := by
  refine ((hperm.map (·.group)).nodup_iff).mpr ?_
  rw [List.map_map]
  refine List.Nodup.map_on ?_ Grouping.nodup_groups
  rintro ⟨k, l⟩ hk ⟨k', l'⟩ hk' heq
  obtain ⟨rfl, hne⟩ := Grouping.mem_groups.mp hk
  obtain ⟨rfl, hne'⟩ := Grouping.mem_groups.mp hk'
  obtain ⟨w, hw⟩ := exists_mem_of_ne_nil _ hne
  obtain ⟨w', hw'⟩ := exists_mem_of_ne_nil _ hne'
  obtain ⟨-, rfl⟩ := Grouping.mem_members.mp hw
  obtain ⟨-, rfl⟩ := Grouping.mem_members.mp hw'
  rw [Group.collect_inj ((keys_aggKey q w).trans (keys_aggKey q w').symm) (nodup_aggKey q w) heq]

theorem covered_of_perm (w : WorkflowStatus) (hw : Considered q g w) :
    ∃! a, a ∈ out ∧ Belongs q a w := by
  refine ⟨_, ⟨(mem_aggregates hperm).mpr ⟨w, hw, rfl⟩, (belongs_iff rfl).mpr rfl⟩, ?_⟩
  rintro a ⟨ha, hbelongs⟩
  obtain ⟨w', -, rfl⟩ := (mem_aggregates hperm).mp ha
  rw [(belongs_iff rfl).mp hbelongs]

include hall

theorem total_of_perm : (out.map fun a => a.count.getD 0).sum = ((counted q g).length : Int) := by
  rw [(hperm.map fun a => a.count.getD 0).sum_eq, List.map_map,
    ← Grouping.sum_length_groups (aggKey q) (counted q g), Nat.cast_list_sum, List.map_map]
  refine congrArg List.sum (map_congr_left fun grp _ => ?_)
  simp only [Function.comp_apply, aggregate_eq hall, getD_some]

/-- **The groups partition the workflows**, if the maxima are exact. -/
theorem partitions_iff_of_perm : Partitions q g out ↔
    NoneWraps q g (·.startedAtMs) ∧ NoneWraps q g (·.completedAtMs) := by
  have hgroup (w : WorkflowStatus) (rows : List WorkflowStatus) :
      (aggregate q (aggKey q w) rows).group = .collect (aggKey q w) := rfl
  rw [noneWraps_iff, noneWraps_iff]
  constructor
  · intro h
    refine ⟨fun w hw => ?_, fun w hw => ?_⟩
    · have hmax := h.longestWait _ ((mem_aggregates hperm).mpr ⟨w, hw, rfl⟩)
      rw [isMaxOf_iff (mem_delays (hgroup w _)), aggregate_eq hall] at hmax
      exact hmax
    · have hmax := h.longestLatency _ ((mem_aggregates hperm).mpr ⟨w, hw, rfl⟩)
      rw [isMaxOf_iff (mem_delays (hgroup w _)), aggregate_eq hall] at hmax
      exact hmax
  · rintro ⟨hwaits, hlatencies⟩
    refine
      { distinct := distinct_of_perm hperm
        covered := covered_of_perm hperm
        counts := fun a ha => ?_
        total := ?_
        earliest := fun a ha => ?_
        longestWait := fun a ha => ?_
        longestLatency := fun a ha => ?_ }
    · obtain ⟨w, -, rfl⟩ := (mem_aggregates hperm).mp ha
      obtain ⟨ids, hcard, hids⟩ := exists_ids_of_group w (hgroup w _)
      refine ⟨ids, ?_, hids⟩
      rw [aggregate_eq hall, hcard]
    · refine ⟨g.workflows.holders (aggPasses q), ?_, fun id => AList.mem_holders⟩
      rw [total_of_perm hall hperm, AList.card_holders, counted, countP_eq_length_filter]
    · obtain ⟨w, -, rfl⟩ := (mem_aggregates hperm).mp ha
      rw [aggregate_eq hall]
      exact isMinOf_min? (mem_creations rfl)
    · obtain ⟨w, hw, rfl⟩ := (mem_aggregates hperm).mp ha
      rw [isMaxOf_iff (mem_delays (hgroup w _)), aggregate_eq hall]
      exact hwaits w hw
    · obtain ⟨w, hw, rfl⟩ := (mem_aggregates hperm).mp ha
      rw [isMaxOf_iff (mem_delays (hgroup w _)), aggregate_eq hall]
      exact hlatencies w hw

end

/-- **The aggregates partition the workflows exactly if no delay wraps around.** -/
theorem partitions_iff (hall : q.SelectsAll) (hlimit : q.limit = none) :
    (∃ out, (getWorkflowAggregates q g).1 = .ok out ∧ Partitions q g out) ↔
      NoneWraps q g (·.startedAtMs) ∧ NoneWraps q g (·.completedAtMs) := by
  obtain ⟨out, hout, hperm⟩ := getWorkflowAggregates_perm q g hlimit
  rw [← partitions_iff_of_perm hall hperm]
  constructor
  · rintro ⟨out', hout', hpartitions⟩
    cases Except.ok.inj (hout.symm.trans hout')
    exact hpartitions
  · exact fun hpartitions => ⟨out, hout, hpartitions⟩

/-! ## Instances -/

/-- A workflow that was created at 1, exported with the time it was started. -/
def exportedStart (started : Int) : ExportedWorkflow where
  workflowStatus := [("workflow_uuid", .string "wf"), ("name", .string "pay"),
    ("started_at_epoch_ms", .number (.int started)), ("created_at", .number (.int 1))]

/-- The store it is imported into. -/
def importedStart (started : Int) : Inner :=
  (importWorkflow noText ⟨0⟩ [exportedStart started] {}).2

theorem reaches_importedStart (started : Int) :
    Reaches noText (fun _ _ => True) {} (importedStart started) :=
  .single ⟨.importWorkflow [exportedStart started], ⟨0⟩, "", trivial, rfl⟩

/-- All aggregates, by name. -/
def allByName : WorkflowAggregateQuery where
  byName := true
  selectCount := true
  selectMinCreatedAt := true
  selectMaxQueueWaitMs := true
  selectMaxTotalLatencyMs := true

theorem counted_importedStart {started : Int} (h : Considered allByName (importedStart started) w) :
    w = mapToStatus noText ⟨0⟩ (exportedStart started).workflowStatus := by
  obtain ⟨⟨id, hid⟩, -⟩ := h
  have hall : ∀ id w, (importedStart started).workflows.lookup id = some w →
      w = mapToStatus noText ⟨0⟩ (exportedStart started).workflowStatus :=
    AList.forall_lookup_insert (fun _ _ h => nomatch h) rfl
  exact hall id w hid

/-- A workflow that was started after its creation. -/
theorem partitions_iff_started : ∃ out,
    (getWorkflowAggregates allByName (importedStart 3)).1 = .ok out ∧
      Partitions allByName (importedStart 3) out := by
  refine (partitions_iff ⟨rfl, rfl, rfl, rfl⟩ rfl).mpr ⟨fun w t hw ht => ?_, fun w t hw ht => ?_⟩
  · cases counted_importedStart hw
    cases ht
    exact ⟨by decide, _, 3, hw, rfl, rfl, by decide⟩
  · cases counted_importedStart hw
    cases ht

/-- **The longest wait of a workflow that was started, by its export, before it was created** — at
the smallest of all times — is the largest number there is. -/
theorem longest_wait_wraps :
    Reaches noText (fun _ _ => True) {} (importedStart (-0x8000000000000000)) ∧
    ∃ out a, (getWorkflowAggregates allByName (importedStart (-0x8000000000000000))).1 = .ok out ∧
      a ∈ out ∧ a.maxQueueWaitMs = some I64_MAX ∧
      ∀ d ∈ delays allByName (importedStart (-0x8000000000000000)) (·.startedAtMs) a, d < 0 := by
  refine ⟨reaches_importedStart _, ?_⟩
  obtain ⟨out, hout, hperm⟩ :=
    getWorkflowAggregates_perm allByName (importedStart (-0x8000000000000000)) rfl
  have hcounted : Considered allByName (importedStart (-0x8000000000000000))
      (mapToStatus noText ⟨0⟩ (exportedStart (-0x8000000000000000)).workflowStatus) :=
    ⟨⟨"wf", rfl⟩, rfl⟩
  refine ⟨out, _, hout, (mem_aggregates hperm).mpr ⟨_, hcounted, rfl⟩, by decide, ?_⟩
  rintro d ⟨w, t, hw, -, htime, rfl⟩
  cases counted_importedStart hw
  cases htime
  decide

end Memory

end Durare
