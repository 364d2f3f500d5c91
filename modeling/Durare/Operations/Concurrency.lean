import Durare.Operations.System

/-!
# Operations/Concurrency — the global concurrency cap

A claim counts the `PENDING` rows of its queue, or of its partition, and takes no more rows than are
left under the cap.  Count and claim happen under one lock, and no other operation of the list makes
a queued row `PENDING`: so the cap is never passed.  A resume does make one `PENDING`, and is not in
the list.
-/

namespace Durare.Memory

/-- A `PENDING` row of the queue, or of one of its partitions. -/
def pendingIn (queue : String) (partition : Option String) (w : WorkflowStatus) : Bool :=
  w.queueName = some queue && (partition.isNone || w.queuePartitionKey = partition) &&
    w.status = .pending

/-- The request can only claim from another partition. -/
def OtherPartition (req : DequeueRequest) (partition : Option String) : Prop :=
  ∃ key key', req.partitionKey = some key ∧ partition = some key' ∧ key ≠ key'

/-- A request on the queue keeps to the cap, and counts at least the rows the cap is for; requests
on another partition may do as they like. -/
def KeepsTo (req : DequeueRequest) (partition : Option String) (cap : Int) : Prop :=
  OtherPartition req partition ∨
    req.globalConcurrency = some cap ∧ (req.partitionKey = none ∨ req.partitionKey = partition)

/-- The operations under the cap.  A row on a queue is inserted waiting; the status of a row is
written by completions and by recovery, never as `PENDING`; nothing is resumed or imported. -/
def Operation.Capped (queue : String) (partition : Option String) (cap : Int) : Operation → Prop
  | call (.insertWorkflowStatus status) =>
    status.queueName.isSome → status.status = .enqueued ∨ status.status = .delayed
  | call (.dequeueWorkflows req) => req.queueName = queue → KeepsTo req partition cap
  | call (.setWorkflowStatus _ status _ _) => status ≠ .pending
  | call (.resumeWorkflow _) => False
  | call (.resumeWorkflows _) => False
  | importWorkflow _ => False
  | _ => True

variable {req : DequeueRequest} {row' w : WorkflowStatus} {x : Option WorkflowStatus}

section

variable {X : TextCodec} {now : DateTime} {id uuid queue : String} {partition : Option String}
  {cap : Int} {g : Inner}

theorem pendingIn_iff : pendingIn queue partition w = true ↔
    w.queueName = some queue ∧ (partition = none ∨ w.queuePartitionKey = partition) ∧
      w.status = .pending := by
  simp [pendingIn, and_assoc]

theorem claimable_iff {latest : Bool} :
    claimable req latest w = true ↔ w.queueName = some req.queueName ∧
      (req.partitionKey = none ∨ w.queuePartitionKey = req.partitionKey) ∧ w.status = .enqueued ∧
        (w.appVersion = req.appVersion ∨ w.appVersion = "" ∧ latest = true) := by
  simp [claimable, inPartition, and_assoc]

/-! ## Every operation but a claim -/

/-- A call under the cap leaves a `PENDING` row of the queue only where there was one, unless it
claims it. -/
theorem Touch.pending_before {c : ProviderCall} (h : Touch now id c x (some row'))
    (hc : (Operation.call c).Capped queue partition cap) (hclaim : ∀ req, c ≠ .dequeueWorkflows req)
    (hrow' : pendingIn queue partition row' = true) :
    ∃ row, x = some row ∧ pendingIn queue partition row = true := by
  obtain ⟨hqueue, -, hpending⟩ := pendingIn_iff.mp hrow'
  cases h with
  | keep => exact ⟨row', rfl, hrow'⟩
  | create =>
    rcases hc (by rw [hqueue, Option.isSome_some]) with henq | hdelayed
    · rw [henq] at hpending
      cases hpending
    · rw [hdelayed] at hpending
      cases hpending
  | write => exact absurd hpending hc
  | cancel _ hlive =>
    rw [cancelRow, if_neg (by simp [hlive])] at hpending
    cases hpending
  | @resume c row hres =>
    cases c with
    | resumeWorkflow | resumeWorkflows => exact hc.elim
    | _ => exact hres.elim
  | enqueue => cases hpending
  | @bump row max =>
    refine ⟨row, rfl, ?_⟩
    unfold bumpRow at hrow' hpending
    dsimp only at hrow' hpending
    split at hpending
    · cases hpending
    · next hmax =>
        rw [if_neg hmax] at hrow'
        exact hrow'
  | claim => exact absurd rfl (hclaim _)
  | promote => cases hpending

theorem Touches.pending_before {op : Operation} (h : Touches X now id op x (some row'))
    (hop : op.Capped queue partition cap) (hclaim : ∀ req, op ≠ .call (.dequeueWorkflows req))
    (hrow' : pendingIn queue partition row' = true) :
    ∃ row, x = some row ∧ pendingIn queue partition row = true := by
  cases h with
  | keep => exact ⟨row', rfl, hrow'⟩
  | call h =>
    refine h.pending_before hop (fun req hreq => ?_) hrow'
    exact hclaim req (congrArg _ hreq)
  | fork => cases (pendingIn_iff.mp hrow').2.2
  | imported => exact hop.elim
  | delay hdelayed => cases hdelayed.symm.trans (pendingIn_iff.mp hrow').2.2

/-- **An operation that claims nothing does not add a `PENDING` row.** -/
theorem countP_run_le (hg : WellKeyed g) {op : Operation} (hop : op.Capped queue partition cap)
    (hclaim : ∀ req, op ≠ .call (.dequeueWorkflows req)) :
    (op.run X now uuid g).workflows.values.countP (pendingIn queue partition) ≤
      g.workflows.values.countP (pendingIn queue partition) := by
  rw [← AList.card_holders, ← AList.card_holders]
  refine Finset.card_le_card fun id hid => ?_
  obtain ⟨row', hrow', hpending⟩ := AList.mem_holders.mp hid
  have htouches : Touches X now id op (g.workflows.lookup id) _ := touches hg op uuid
  rw [hrow'] at htouches
  exact AList.mem_holders.mpr (htouches.pending_before hop hclaim hpending)

/-! ## A claim -/

/-- After a claim a `PENDING` row was there before, or was claimed from the queue. -/
theorem holders_dequeue (hg : WellKeyed g)
    (h : id ∈ (dequeueWorkflows now req g).2.workflows.holders (pendingIn queue partition)) :
    id ∈ g.workflows.holders (pendingIn queue partition) ∨
      id ∈ claimIds now req g ∧ req.queueName = queue ∧ ¬OtherPartition req partition := by
  obtain ⟨row', hrow', hpending⟩ := AList.mem_holders.mp h
  rw [lookup_dequeueWorkflows] at hrow'
  by_cases hid : id ∈ claimIds now req g
  · obtain ⟨row, hrow, hclaim⟩ := claimable_of_mem_claimIds hg hid
    rw [if_pos hid, hrow] at hrow'
    cases hrow'
    obtain ⟨hqueue, hpartition, -⟩ := pendingIn_iff.mp hpending
    obtain ⟨hqueue', hpartition', -⟩ := claimable_iff.mp hclaim
    refine .inr ⟨hid, Option.some.inj (hqueue'.symm.trans hqueue), ?_⟩
    rintro ⟨key, key', hkey, hkey', hne⟩
    rcases hpartition with hnone | hpartition
    · rw [hnone] at hkey'
      cases hkey'
    · rcases hpartition' with hnone | hpartition'
      · rw [hnone] at hkey
        cases hkey
      · exact hne (Option.some.inj ((hkey.symm.trans hpartition'.symm).trans
          (hpartition.trans hkey')))
  · rw [if_neg hid] at hrow'
    exact .inl (AList.mem_holders.mpr ⟨row', hrow', hpending⟩)

theorem claimBudget_le (hcap : req.globalConcurrency = some cap) (hnonneg : 0 ≤ cap) :
    claimBudget now req g ≤
      max (cap - (g.workflows.values.countP
        (pendingIn req.queueName req.partitionKey) : Int)) 0 := by
  have hcount : g.workflows.values.countP (pendingIn req.queueName req.partitionKey) =
      g.workflows.values.countP fun w => decide (w.queueName = some req.queueName) &&
        inPartition req w && decide (w.status = .pending) := rfl
  rw [hcount, claimBudget]
  exact (DequeueRequest.budget_le_cap hcap).trans (leftOf_le hnonneg)

/-- The rows a cap is for are among the rows its request counts. -/
theorem countP_le_counted (hpartition : req.partitionKey = none ∨ req.partitionKey = partition) :
    g.workflows.values.countP (pendingIn queue partition) ≤
      g.workflows.values.countP (pendingIn queue req.partitionKey) := by
  refine List.countP_mono_left fun w _ hw => ?_
  obtain ⟨hqueue, hin, hpending⟩ := pendingIn_iff.mp hw
  rcases hpartition with hnone | rfl
  · exact pendingIn_iff.mpr ⟨hqueue, .inl hnone, hpending⟩
  · exact hw

/-- **A claim under the cap keeps it.** -/
theorem countP_dequeue_le (hg : WellKeyed g)
    (hreq : req.queueName = queue → KeepsTo req partition cap)
    (hle : (g.workflows.values.countP (pendingIn queue partition) : Int) ≤ cap) :
    ((dequeueWorkflows now req g).2.workflows.values.countP (pendingIn queue partition) : Int) ≤
      cap := by
  rw [← AList.card_holders] at hle ⊢
  by_cases hclaims : req.queueName = queue ∧ ¬OtherPartition req partition
  · obtain ⟨rfl, helse⟩ := hclaims
    obtain ⟨hcap, hpartition⟩ := (hreq rfl).resolve_left helse
    have hsubset : (dequeueWorkflows now req g).2.workflows.holders
        (pendingIn req.queueName partition) ⊆
          g.workflows.holders (pendingIn req.queueName partition) ∪
            (claimIds now req g).toFinset := by
      intro id hid
      rcases holders_dequeue hg hid with hold | ⟨hclaimed, -⟩
      · exact Finset.mem_union_left _ hold
      · exact Finset.mem_union_right _ (List.mem_toFinset.mpr hclaimed)
    have hcard := (Finset.card_le_card hsubset).trans (Finset.card_union_le _ _)
    have hclaimed := (List.toFinset_card_le (claimIds now req g)).trans
      (length_claimIds_le now req g)
    have hbudget : claimBudget now req g ≤ _ := claimBudget_le hcap (by omega)
    have hcounted : g.workflows.values.countP (pendingIn req.queueName partition) ≤ _ :=
      countP_le_counted hpartition
    rw [← AList.card_holders] at hcounted
    omega
  · have hsubset : (dequeueWorkflows now req g).2.workflows.holders (pendingIn queue partition) ⊆
        g.workflows.holders (pendingIn queue partition) := by
      intro id hid
      rcases holders_dequeue hg hid with hold | ⟨-, hclaim⟩
      · exact hold
      · exact absurd hclaim hclaims
    have hcard := Finset.card_le_card hsubset
    omega

/-! ## Every run -/

/-- **The number of `PENDING` rows never passes the cap**, whatever operations under it are done. -/
theorem pending_le_cap (hcap : 0 ≤ cap)
    (hrun : Reaches X (fun op _ => op.Capped queue partition cap) {} g) :
    (g.workflows.values.countP (pendingIn queue partition) : Int) ≤ cap := by
  have hinv : WellKeyed g ∧ (g.workflows.values.countP (pendingIn queue partition) :
      Int) ≤ cap := by
    refine hrun.invariant (I := fun g => WellKeyed g ∧
      (g.workflows.values.countP (pendingIn queue partition) : Int) ≤ cap)
      (fun op now uuid g hop hg => ⟨wellKeyed_run hg.1 op uuid, ?_⟩) ⟨wellKeyed_empty, hcap⟩
    by_cases hclaim : ∃ req, op = .call (.dequeueWorkflows req)
    · obtain ⟨req, rfl⟩ := hclaim
      exact countP_dequeue_le hg.1 hop hg.2
    · refine le_trans (Int.ofNat_le.mpr (countP_run_le hg.1 hop ?_)) hg.2
      exact fun req hreq => hclaim ⟨req, hreq⟩
  exact hinv.2

end

/-- A row waiting on the queue `q`. -/
def waiting (id : String) (priority : Int) : WorkflowStatus :=
  { WorkflowStatus.new ⟨0⟩ id "report" .null .enqueued "" "" with
    queueName := some "q"
    priority := priority }

/-- Two rows wait on the queue `q`. -/
def twoWaiting : Inner :=
  (insertWorkflowStatus (waiting "a" 1) (insertWorkflowStatus (waiting "b" 2) {}).2).2

/-- A claim of up to ten rows of the queue `q`, under a cap of one. -/
def oneAtATime : DequeueRequest := ⟨"q", "local", "", none, 10, some 1, none, none⟩

theorem pending_le_cap_one : ∃ g, Reaches noText (fun op _ => op.Capped "q" none 1) {} g ∧
    g.workflows.values.countP (pendingIn "q" none) = 1 ∧
    (g.workflows.values.countP (pendingIn "q" none) : Int) ≤ 1 := by
  have hstep {g : Inner} (c : ProviderCall) (hc : (Operation.call c).Capped "q" none 1) :
      Step noText (fun op _ => op.Capped "q" none 1) g (call c ⟨0⟩ "" g).2 :=
    ⟨.call c, ⟨0⟩, "", hc, rfl⟩
  have hwaiting : Reaches noText (fun op _ => op.Capped "q" none 1) {} twoWaiting :=
    (Relation.ReflTransGen.single (hstep (.insertWorkflowStatus (waiting "b" 2)) fun _ =>
      .inl rfl)).tail (hstep (.insertWorkflowStatus (waiting "a" 1)) fun _ => .inl rfl)
  have hrun := hwaiting.tail (hstep (.dequeueWorkflows oneAtATime) fun _ => .inr ⟨rfl, .inl rfl⟩)
  have hsorted : [((1 : Int), (0 : Int), "a"), (2, 0, "b")].Pairwise fun a b =>
      claimLe a b = true := by
    decide
  have hids : claimIds ⟨0⟩ oneAtATime twoWaiting = ["a"] := claimIds_of_pairwise rfl hsorted
  refine ⟨_, hrun, ?_, pending_le_cap (by decide) hrun⟩
  rw [call, dequeueWorkflows, hids]
  decide

end Durare.Memory
