import Durare.Operations.Concurrency

/-!
# Operations/RateLimit — starts within a window

The limiter has no record of its own: a claim counts the rows of its queue that stand there as
started within the last period.  A claim is forgotten when its row stops standing there — a cancel
takes the row off the queue, a resume takes its start away, and a row that is enqueued again is not
counted until it is claimed again, which overwrites its start.

`Claiming` is a run together with the claims it made.  Where no step displaces a row claimed within
the last period, a window never holds more claims than the limit: the claims of the window and the
rows the next claim counts are then the same.
-/

namespace Durare.Memory

open List

/-- A claim that was made, at its clock reading in milliseconds. -/
structure Claimed where
  timeMs : Int
  id : String
  deriving DecidableEq

/-- Claims of these rows, all at one time. -/
def claimsAt (now : DateTime) (ids : List String) : List Claimed :=
  ids.map fun id => ⟨now.timestampMillis, id⟩

/-- The claims an operation makes on the queue, or on one of its partitions. -/
def Operation.claims (queue : String) (partition : Option String) (now : DateTime) (g : Inner) :
    Operation → List Claimed
  | call (.dequeueWorkflows req) =>
    if req.queueName = queue ∧ req.partitionKey = partition then
      claimsAt now (claimIds now req g)
    else []
  | _ => []

/-- A run from the empty store, its clock, and the claims it has made.  Clock readings do not go
back. -/
inductive Claiming (X : TextCodec) (queue : String) (partition : Option String)
    (allowed : Operation → DateTime → Inner → Prop) : DateTime → List Claimed → Inner → Prop where
  | start (clock : DateTime) : Claiming X queue partition allowed clock [] {}
  | step {clock : DateTime} {claims : List Claimed} {g : Inner}
      (h : Claiming X queue partition allowed clock claims g) {op : Operation} {now : DateTime}
      (uuid : String) (hclock : clock ≤ now) (hop : allowed op now g) :
      Claiming X queue partition allowed now (op.claims queue partition now g ++ claims)
        (op.run X now uuid g)

theorem Claiming.call {X : TextCodec} {queue : String} {partition : Option String}
    {allowed : Operation → DateTime → Inner → Prop} {clock now : DateTime} {claims : List Claimed}
    {g : Inner} (h : Claiming X queue partition allowed clock claims g) (c : ProviderCall)
    (hclock : clock ≤ now) (hop : allowed (.call c) now g) :
    Claiming X queue partition allowed now ((Operation.call c).claims queue partition now g ++
      claims) (Memory.call c now "" g).2 := h.step "" hclock hop

/-- The claim was made at a time in `(t - period, t]`. -/
def Claimed.inWindow (period t : Int) (c : Claimed) : Bool := t - period < c.timeMs && c.timeMs ≤ t

/-- The operations of the run: every claim on the queue keeps to the limit and the period and counts
the rows the limit is for, or is on another partition; rows are not deleted, forked or imported. -/
def Operation.Limited (queue : String) (partition : Option String) (limit period : Int) :
    Operation → Prop
  | call (.dequeueWorkflows req) => req.queueName = queue →
      OtherPartition req partition ∨ req.rateLimitMax = some limit ∧
        req.rateLimitPeriodMs = some period ∧ req.partitionKey = partition
  | call (.deleteWorkflows _ _) | forkWorkflow _ | importWorkflow _ | garbageCollect _ _ => False
  | _ => True

/-- The row stands on the queue as started by a rate-limited claim. -/
def started (queue : String) (partition : Option String) (w : WorkflowStatus) : Bool :=
  w.queueName = some queue && (partition.isNone || w.queuePartitionKey = partition) &&
    w.rateLimited && w.status ≠ .enqueued && w.status ≠ .delayed

/-- The call takes the row off the queue, takes its start away, or lets it wait again. -/
def Displaces (id : String) (row : WorkflowStatus) (c : ProviderCall) : Prop :=
  Cancels id c ∧ row.status.isTerminal = false ∨ Resumes id c ∧ resumable row = true ∨
    (∃ queue, c = .enqueueExisting id queue) ∨ ∃ status output error,
      c = .setWorkflowStatus id status output error ∧ (status = .enqueued ∨ status = .delayed)

/-- No row that was claimed less than a period ago is displaced. -/
def Operation.Retains (queue : String) (partition : Option String) (period : Int) (now : DateTime)
    (g : Inner) : Operation → Prop
  | call c => ∀ id row, g.workflows.lookup id = some row → started queue partition row = true →
      row.startedAtMs.any (now.timestampMillis - period < ·) = true → ¬Displaces id row c
  | _ => True

variable {op : Operation} {req : DequeueRequest} {row : WorkflowStatus}

section

variable {X : TextCodec} {now clock : DateTime} {id uuid queue : String} {partition : Option String}
  {limit period : Int} {g : Inner} {claims : List Claimed}

theorem started_iff {w : WorkflowStatus} : started queue partition w = true ↔
    w.queueName = some queue ∧ (partition = none ∨ w.queuePartitionKey = partition) ∧
      w.rateLimited = true ∧ w.status ≠ .enqueued ∧ w.status ≠ .delayed := by
  simp [started, and_assoc]

/-! ## Rows that were claimed stay counted -/

/-- A call that does not displace the row. -/
theorem Touch.started_stays {c : ProviderCall} {y : Option WorkflowStatus}
    (h : Touch now id c (some row) y) (hc : (Operation.call c).Limited queue partition limit period)
    (hrow : started queue partition row = true) (hstays : ¬Displaces id row c) :
    ∃ row', y = some row' ∧ started queue partition row' = true ∧
      row'.startedAtMs = row.startedAtMs := by
  obtain ⟨hqueue, hpartition, hlimited, henq, hdelayed⟩ := started_iff.mp hrow
  cases h with
  | keep => exact ⟨row, rfl, hrow, rfl⟩
  | @write _ status output error =>
    refine ⟨_, rfl, started_iff.mpr ⟨hqueue, hpartition, hlimited, ?_, ?_⟩, rfl⟩
    · rintro rfl
      exact hstays (.inr (.inr (.inr ⟨_, _, _, rfl, .inl rfl⟩)))
    · rintro rfl
      exact hstays (.inr (.inr (.inr ⟨_, _, _, rfl, .inr rfl⟩)))
  | cancel hcancels hlive => exact absurd (.inl ⟨hcancels, hlive⟩) hstays
  | resume hresumes hres => exact absurd (.inr (.inl ⟨hresumes, hres⟩)) hstays
  | enqueue => exact absurd (.inr (.inr (.inl ⟨_, rfl⟩))) hstays
  | @bump _ max =>
    refine ⟨_, rfl, ?_⟩
    unfold bumpRow
    dsimp only
    split
    · exact ⟨started_iff.mpr ⟨hqueue, hpartition, hlimited, by simp, by simp⟩, rfl⟩
    · exact ⟨hrow, rfl⟩
  | claim hwaits => exact absurd hwaits henq
  | promote hwaits => exact absurd hwaits hdelayed
  | delete => exact hc.elim

theorem started_stays (hg : WellKeyed g) (hop : op.Limited queue partition limit period)
    (hretains : op.Retains queue partition period now g)
    (hlookup : g.workflows.lookup id = some row) (hrow : started queue partition row = true)
    (hrecent : row.startedAtMs.any (now.timestampMillis - period < ·) = true) :
    ∃ row', (op.run X now uuid g).workflows.lookup id = some row' ∧
      started queue partition row' = true ∧ row'.startedAtMs = row.startedAtMs := by
  have htouches : Touches X now id op (g.workflows.lookup id) _ := touches hg op uuid
  rw [hlookup] at htouches
  generalize (op.run X now uuid g).workflows.lookup id = y at htouches ⊢
  cases htouches with
  | keep => exact ⟨row, rfl, hrow, rfl⟩
  | call h => exact h.started_stays hop hrow (hretains id row hlookup hrow hrecent)
  | fork | imported | collect => exact hop.elim
  | delay hdelayed => exact absurd hdelayed (started_iff.mp hrow).2.2.2.2

/-! ## The claims of a window -/

/-- The claims of a run and the rows that stand for them, while clocks read `clock`. -/
structure Accounted (queue : String) (partition : Option String) (limit period : Int)
    (clock : DateTime) (claims : List Claimed) (g : Inner) : Prop where
  keyed : WellKeyed g
  /-- no claim lies in the future -/
  past : ∀ c ∈ claims, c.timeMs ≤ clock.timestampMillis
  /-- the row of a recent claim still says when it was claimed -/
  recorded : ∀ c ∈ claims, clock.timestampMillis - period < c.timeMs →
    ∃ row, g.workflows.lookup c.id = some row ∧ started queue partition row = true ∧
      row.startedAtMs = some c.timeMs
  /-- recent claims are of different rows -/
  distinct : ((claims.filter fun c => clock.timestampMillis - period < c.timeMs).map
    Claimed.id).Nodup
  bounded : ∀ t, (claims.countP (Claimed.inWindow period t) : Int) ≤ limit

/-- The rows a claim counts. -/
def recentlyStarted (queue : String) (partition : Option String) (cutoff : Int)
    (w : WorkflowStatus) : Bool :=
  started queue partition w && w.startedAtMs.any (cutoff < ·)

theorem claimBudget_le_rate (hlimit : req.rateLimitMax = some limit)
    (hperiod : req.rateLimitPeriodMs = some period) (hnonneg : 0 ≤ limit)
    (hfits : FitsI64 (now.timestampMillis - period)) :
    claimBudget now req g ≤ max (limit - (g.workflows.values.countP (recentlyStarted req.queueName
      req.partitionKey (now.timestampMillis - period)) : Int)) 0 := by
  have hcount : g.workflows.values.countP (recentlyStarted req.queueName req.partitionKey
      (now.timestampMillis - period)) = g.workflows.values.countP fun w =>
        decide (w.queueName = some req.queueName) && inPartition req w && w.rateLimited &&
          w.status ≠ .enqueued && w.status ≠ .delayed &&
            w.startedAtMs.any (now.timestampMillis - period < ·) := rfl
  rw [hcount, claimBudget]
  refine (DequeueRequest.budget_le_rate hlimit hperiod).trans ?_
  rw [i64_of_fits hfits]
  exact leftOf_le hnonneg

theorem recent_of_later (hclock : clock ≤ now) {c : Claimed}
    (h : now.timestampMillis - period < c.timeMs) : clock.timestampMillis - period < c.timeMs := by
  have hmono := DateTime.timestampMillis_mono hclock
  omega

theorem Accounted.distinct_later (h : Accounted queue partition limit period clock claims g)
    (hclock : clock ≤ now) :
    ((claims.filter fun c => now.timestampMillis - period < c.timeMs).map Claimed.id).Nodup := by
  refine h.distinct.sublist (List.Sublist.map _ (monotone_filter_right _ fun c hc => ?_))
  simp only [decide_eq_true_eq] at hc ⊢
  exact recent_of_later hclock hc

/-- **The rows a claim counts are at least the recent claims.** -/
theorem Accounted.recent_le (h : Accounted queue partition limit period clock claims g)
    (hclock : clock ≤ now) :
    claims.countP (fun c => now.timestampMillis - period < c.timeMs) ≤
      g.workflows.values.countP
        (recentlyStarted queue partition (now.timestampMillis - period)) := by
  rw [← AList.card_holders, countP_eq_length_filter, ← length_map Claimed.id,
    ← toFinset_card_of_nodup (h.distinct_later hclock)]
  refine Finset.card_le_card fun id hid => ?_
  obtain ⟨c, hc, rfl⟩ := mem_map.mp (mem_toFinset.mp hid)
  obtain ⟨hmem, hrecent⟩ := mem_filter.mp hc
  rw [decide_eq_true_eq] at hrecent
  obtain ⟨row, hrow, hstarted, htime⟩ := h.recorded c hmem (recent_of_later hclock hrecent)
  refine AList.mem_holders.mpr ⟨row, hrow, ?_⟩
  simp [recentlyStarted, hstarted, htime, hrecent]

/-- An old claim that is still recent stands as it was after the next operation. -/
theorem Accounted.recorded_stays (h : Accounted queue partition limit period clock claims g)
    (hclock : clock ≤ now) (hop : op.Limited queue partition limit period)
    (hretains : op.Retains queue partition period now g) {c : Claimed} (hc : c ∈ claims)
    (hrecent : now.timestampMillis - period < c.timeMs) :
    ∃ row, (op.run X now uuid g).workflows.lookup c.id = some row ∧
      started queue partition row = true ∧ row.startedAtMs = some c.timeMs := by
  obtain ⟨row, hrow, hstarted, htime⟩ := h.recorded c hc (recent_of_later hclock hrecent)
  have hany : row.startedAtMs.any (now.timestampMillis - period < ·) = true := by
    simp [htime, hrecent]
  obtain ⟨row', hrow', hstarted', htime'⟩ := started_stays h.keyed hop hretains hrow hstarted hany
  exact ⟨row', hrow', hstarted', htime'.trans htime⟩

theorem Accounted.quiet (h : Accounted queue partition limit period clock claims g)
    (hclock : clock ≤ now) (hop : op.Limited queue partition limit period)
    (hretains : op.Retains queue partition period now g) :
    Accounted queue partition limit period now claims (op.run X now uuid g) where
  keyed := wellKeyed_run h.keyed op uuid
  past _ hc := (h.past _ hc).trans (DateTime.timestampMillis_mono hclock)
  recorded _ hc hrecent := h.recorded_stays hclock hop hretains hc hrecent
  distinct := h.distinct_later hclock
  bounded := h.bounded

/-- A row that was just claimed stands on the queue as started now. -/
theorem started_of_claimed (hg : WellKeyed g) (hlimit : req.rateLimitMax = some limit)
    (hid : id ∈ claimIds now req g) :
    ∃ row, (dequeueWorkflows now req g).2.workflows.lookup id = some row ∧
      started req.queueName req.partitionKey row = true ∧
        row.startedAtMs = some now.timestampMillis := by
  obtain ⟨row, hrow, hclaim⟩ := claimable_of_mem_claimIds hg hid
  obtain ⟨hqueue, hpartition, -, -⟩ := claimable_iff.mp hclaim
  refine ⟨claimRow now req row, ?_, started_iff.mpr ⟨hqueue, hpartition, ?_, ?_, ?_⟩, rfl⟩
  · rw [lookup_dequeueWorkflows, if_pos hid, hrow, Option.map_some]
  · rw [claimRow, hlimit, Option.isSome_some]
  · simp [claimRow]
  · simp [claimRow]

/-- The windows after a claim: those that end before it are as they were, and in the others every
older claim is one that was counted. -/
theorem Accounted.bounded_claim
    (h : Accounted req.queueName req.partitionKey limit period clock claims g)
    (hclock : clock ≤ now) (hlimit : req.rateLimitMax = some limit)
    (hperiod : req.rateLimitPeriodMs = some period)
    (hfits : FitsI64 (now.timestampMillis - period)) (t : Int) :
    ((claimsAt now (claimIds now req g) ++ claims).countP (Claimed.inWindow period t) : Int) ≤
      limit := by
  have hnew : (claimsAt now (claimIds now req g)).countP (Claimed.inWindow period t) ≤
      (claimIds now req g).length := by
    rw [← length_map]
    exact countP_le_length
  rw [countP_append]
  by_cases ht : t < now.timestampMillis
  · have hnone : (claimsAt now (claimIds now req g)).countP (Claimed.inWindow period t) = 0 := by
      refine countP_eq_zero.mpr fun c hc => ?_
      obtain ⟨id, -, rfl⟩ := mem_map.mp hc
      simp only [Claimed.inWindow, Bool.and_eq_true, decide_eq_true_eq]
      omega
    rw [hnone, Nat.zero_add]
    exact h.bounded t
  · have hold : claims.countP (Claimed.inWindow period t) ≤
        claims.countP (fun c => now.timestampMillis - period < c.timeMs) := by
      refine countP_mono_left fun c _ hc => ?_
      simp only [Claimed.inWindow, Bool.and_eq_true, decide_eq_true_eq] at hc ⊢
      omega
    have hrecent := h.recent_le hclock
    have hclaimed := length_claimIds_le now req g
    have hbefore := h.bounded t
    have hbudget : claimBudget now req g ≤ _ := claimBudget_le_rate hlimit hperiod (by omega) hfits
    omega

/-- **A claim that keeps to the limit.** -/
theorem Accounted.claim {req : DequeueRequest}
    (h : Accounted req.queueName req.partitionKey limit period clock claims g)
    (hclock : clock ≤ now)
    (hlimit : req.rateLimitMax = some limit) (hperiod : req.rateLimitPeriodMs = some period)
    (hfits : FitsI64 (now.timestampMillis - period))
    (hretains : (Operation.call (.dequeueWorkflows req)).Retains req.queueName req.partitionKey
      period now g) :
    Accounted req.queueName req.partitionKey limit period now
      (claimsAt now (claimIds now req g) ++ claims) (dequeueWorkflows now req g).2 := by
  have hlimited : (Operation.call (.dequeueWorkflows req)).Limited req.queueName req.partitionKey
      limit period := fun _ => .inr ⟨hlimit, hperiod, rfl⟩
  refine ⟨wellKeyed_call h.keyed (.dequeueWorkflows req) "", ?_, ?_, ?_, h.bounded_claim hclock
    hlimit hperiod hfits⟩
  · intro c hc
    rcases mem_append.mp hc with hnew | hold
    · obtain ⟨id, -, rfl⟩ := mem_map.mp hnew
      exact le_rfl
    · exact (h.past c hold).trans (DateTime.timestampMillis_mono hclock)
  · intro c hc hrecent
    rcases mem_append.mp hc with hnew | hold
    · obtain ⟨id, hid, rfl⟩ := mem_map.mp hnew
      exact started_of_claimed h.keyed hlimit hid
    · have hstays : ∃ row, ((Operation.call (.dequeueWorkflows req)).run noText now ""
          g).workflows.lookup
          c.id = some row ∧ _ := h.recorded_stays hclock hlimited hretains hold hrecent
      exact hstays
  · rw [filter_append, map_append]
    refine List.Nodup.append ?_ (h.distinct_later hclock) ?_
    · have hids : (claimsAt now (claimIds now req g)).map Claimed.id = claimIds now req g := by
        rw [claimsAt, List.map_map]
        exact map_id _
      refine List.Nodup.sublist (filter_sublist.map _) ?_
      rw [hids]
      exact claimIds_nodup h.keyed req
    · -- A row with a recent claim does not wait on the queue, so it is not claimed again.
      intro id hnew hold
      obtain ⟨c, hc, rfl⟩ := mem_map.mp hnew
      obtain ⟨id, hid, rfl⟩ := mem_map.mp (mem_filter.mp hc).1
      obtain ⟨c', hc', hsame⟩ := mem_map.mp hold
      obtain ⟨hmem, hrecent⟩ := mem_filter.mp hc'
      rw [decide_eq_true_eq] at hrecent
      obtain ⟨row, hrow, hstarted, -⟩ := h.recorded c' hmem (recent_of_later hclock hrecent)
      obtain ⟨row', hrow', henq⟩ := enqueued_of_mem_claimIds h.keyed hid
      rw [hsame] at hrow
      cases hrow.symm.trans hrow'
      exact (started_iff.mp hstarted).2.2.2.1 henq

theorem Accounted.step (h : Accounted queue partition limit period clock claims g)
    (hclock : clock ≤ now) {op : Operation} (hop : op.Limited queue partition limit period)
    (hretains : op.Retains queue partition period now g)
    (hfits : FitsI64 (now.timestampMillis - period)) :
    Accounted queue partition limit period now (op.claims queue partition now g ++ claims)
      (op.run X now uuid g) := by
  by_cases hclaims : ∃ req, op = .call (.dequeueWorkflows req) ∧ req.queueName = queue ∧
      req.partitionKey = partition
  · obtain ⟨req, rfl, rfl, rfl⟩ := hclaims
    have hsame : ¬OtherPartition req req.partitionKey := by
      rintro ⟨key, key', hkey, hkey', hne⟩
      exact hne (Option.some.inj (hkey.symm.trans hkey'))
    obtain ⟨hlimit, hperiod, -⟩ := (hop rfl).resolve_left hsame
    rw [Operation.claims, if_pos ⟨rfl, rfl⟩]
    exact h.claim hclock hlimit hperiod hfits hretains
  · have hnone : op.claims queue partition now g = [] := by
      unfold Operation.claims
      split
      · next req => exact if_neg fun hreq => hclaims ⟨req, rfl, hreq⟩
      · rfl
    rw [hnone, nil_append]
    exact h.quiet hclock hop hretains

theorem accounted_empty (hlimit : 0 ≤ limit) : Accounted queue partition limit period
    clock [] {} where
  keyed := wellKeyed_empty
  past := by simp
  recorded := by simp
  distinct := by simp
  bounded := by simpa using hlimit

/-- **A window holds at most as many claims as the limit allows**, in every run in which no step
displaces a row that was claimed less than a period ago, and the beginning of a window is a 64-bit
number. -/
theorem claims_le_limit (hlimit : 0 ≤ limit)
    (hrun : Claiming X queue partition (fun op now g => op.Limited queue partition limit period ∧
      op.Retains queue partition period now g ∧ FitsI64 (now.timestampMillis - period))
      clock claims g) (t : Int) :
    (claims.countP (Claimed.inWindow period t) : Int) ≤ limit := by
  have haccounted : Accounted queue partition limit period clock claims g := by
    induction hrun with
    | start clock => exact accounted_empty hlimit
    | step _ uuid hclock hop ih => exact ih.step hclock hop.1 hop.2.1 hop.2.2
  exact haccounted.bounded t

end

/-- A claim of up to ten rows of the queue `q`, of which one may start in a minute. -/
def onePerMinute : DequeueRequest := ⟨"q", "local", "", none, 10, none, some 1, some 60000⟩

/-- The instant so many milliseconds after the epoch. -/
def atMs (ms : Int) : DateTime := ⟨ms * 1000000⟩

/-- Two rows waited, and one of them is claimed. -/
def firstClaimed : Inner :=
  { twoWaiting with workflows := twoWaiting.workflows.modify "a" (claimRow (atMs 0) onePerMinute) }

/-- The row that was claimed is cancelled. -/
def firstCancelled : Inner := (cancelWorkflow (atMs 1) "a" firstClaimed).2

theorem claiming_firstClaimed {allowed : Operation → DateTime → Inner → Prop}
    (hinsert : ∀ status g, allowed (.call (.insertWorkflowStatus status)) (atMs 0) g)
    (hclaim : allowed (.call (.dequeueWorkflows onePerMinute)) (atMs 0) twoWaiting) :
    Claiming noText "q" none allowed (atMs 0) [⟨0, "a"⟩] firstClaimed := by
  have hwaiting : Claiming noText "q" none allowed (atMs 0) [] twoWaiting :=
    ((Claiming.start (atMs 0)).call (.insertWorkflowStatus (waiting "b" 2)) (Int.le_refl _)
      (hinsert _ _)).call (.insertWorkflowStatus (waiting "a" 1)) (Int.le_refl _) (hinsert _ _)
  have hsorted : [((1 : Int), (0 : Int), "a"), (2, 0, "b")].Pairwise fun a b =>
      claimLe a b = true := by
    decide
  have hids : claimIds (atMs 0) onePerMinute twoWaiting = ["a"] := claimIds_of_pairwise rfl hsorted
  have hclaimed := hwaiting.call (.dequeueWorkflows onePerMinute) (Int.le_refl _) hclaim
  rw [Operation.claims, if_pos ⟨rfl, rfl⟩, call, dequeueWorkflows, hids] at hclaimed
  exact hclaimed

theorem claims_le_limit_first :
    Claiming noText "q" none (fun op now g => op.Limited "q" none 1 60000 ∧
      op.Retains "q" none 60000 now g ∧ FitsI64 (now.timestampMillis - 60000)) (atMs 0)
      [⟨0, "a"⟩] firstClaimed ∧
    (([⟨0, "a"⟩] : List Claimed).countP (Claimed.inWindow 60000 0) : Int) ≤ 1 := by
  have hfits : FitsI64 ((atMs 0).timestampMillis - 60000) := ⟨by decide, by decide⟩
  have hrun := @claiming_firstClaimed (fun op now g => op.Limited "q" none 1 60000 ∧
      op.Retains "q" none 60000 now g ∧ FitsI64 (now.timestampMillis - 60000))
    (fun status g => ⟨trivial, by simp [Operation.Retains, Displaces, Cancels, Resumes], hfits⟩)
    ⟨fun _ => .inr ⟨rfl, rfl, rfl⟩, by simp [Operation.Retains, Displaces, Cancels, Resumes], hfits⟩
  exact ⟨hrun, claims_le_limit (by decide) hrun 0⟩

/-- **Two starts in a minute where one is allowed**: the first is cancelled, and so forgotten,
before the second. -/
theorem claims_pass_limit : ∃ claims g,
    Claiming noText "q" none (fun op _ _ => op.Limited "q" none 1 60000) (atMs 2) claims g ∧
      claims.countP (Claimed.inWindow 60000 2) = 2 := by
  have hlimited : (Operation.call (.dequeueWorkflows onePerMinute)).Limited "q" none 1 60000 :=
    fun _ => .inr ⟨rfl, rfl, rfl⟩
  have hclaimed : Claiming noText "q" none (fun op _ _ => op.Limited "q" none 1 60000) (atMs 0)
      [⟨0, "a"⟩] firstClaimed := claiming_firstClaimed (fun _ _ => trivial) hlimited
  have hcancelled : Claiming noText "q" none (fun op _ _ => op.Limited "q" none 1 60000) (atMs 1)
      [⟨0, "a"⟩] firstCancelled := hclaimed.call (.cancelWorkflow "a") (by decide) trivial
  have hsorted : [((2 : Int), (0 : Int), "b")].Pairwise fun a b => claimLe a b = true := by decide
  have hids : claimIds (atMs 2) onePerMinute firstCancelled = ["b"] :=
    claimIds_of_pairwise rfl hsorted
  have hagain : Claiming noText "q" none (fun op _ _ => op.Limited "q" none 1 60000) (atMs 2) _ _ :=
    hcancelled.call (.dequeueWorkflows onePerMinute) (by decide) hlimited
  rw [Operation.claims, if_pos ⟨rfl, rfl⟩, hids] at hagain
  exact ⟨_, _, hagain, by decide⟩

end Durare.Memory
