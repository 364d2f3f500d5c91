import Durare.Engine.Absorbing
import Durare.Operations.Claims

/-!
# Operations/Fifo — the order in which a queue is served

The dispatcher asks for the rows of its queue whether or not the queue has priorities, and the
backend sorts by priority first.  So a queue without priorities is first come, first served only as
long as the priorities of its rows do not say otherwise.

* `FirstCome` — a claim leaves no row behind that is older than one it takes.
* `claims_first_come` — the claims of every run, for rows that are claimed in their own order.
* `overtaken` — a younger row with a smaller priority goes first.
-/

namespace Durare.Memory

open List

variable {now : DateTime} {req : DequeueRequest} {g : Inner}

/-- The row waits on the queue of the request. -/
structure Queued (req : DequeueRequest) (g : Inner) (row : WorkflowStatus) : Prop where
  mem : row ∈ g.workflows.values
  onQueue : OnQueue req row
  enqueued : row.status = .enqueued

/-- **First come, first served**: a claim leaves no row behind that was created before one it
takes. -/
def FirstCome : Proc.Event Eff Answer (World Inner) → Prop
  | ⟨.provider (.dequeueWorkflows req), _, .ok rows, w'⟩ => ∀ row ∈ rows, ∀ other,
      Queued req w'.store other → ¬other.createdAt < row.createdAt
  | _ => True

variable {row : WorkflowStatus} {rows : List WorkflowStatus}

theorem FirstCome.of_ok {w w' : World Inner} {r : Except Error (List WorkflowStatus)}
    (h : FirstCome ⟨.provider (.dequeueWorkflows req), w, r, w'⟩) (hr : r = .ok rows)
    {other : WorkflowStatus} (hrow : row ∈ rows) (hother : Queued req w'.store other) :
    ¬other.createdAt < row.createdAt := by
  subst hr
  exact h row hrow other hother

/-- The rows on the queue of a claim have its version. -/
def Versioned : Proc.Event Eff Answer (World Inner) → Prop
  | ⟨.provider (.dequeueWorkflows req), w, _, _⟩ => ∀ row, Queued req w.store row →
      row.appVersion = req.appVersion
  | _ => True

/-- The rows on the queue of a claim were created in the order in which they are claimed. -/
def InOrder : Proc.Event Eff Answer (World Inner) → Prop
  | ⟨.provider (.dequeueWorkflows req), w, _, _⟩ => ∀ a b, Queued req w.store a →
      Queued req w.store b → a.createdAt < b.createdAt → Before a b
  | _ => True

variable {a b : WorkflowStatus}

theorem Before.asymm (hab : Before a b) : ¬Before b a := by
  have hid : a.id < b.id → ¬b.id < a.id := String.lt_asymm
  unfold Before at *
  grind

/-- A row that still waits after a claim waited before it, behind the claimed ones. -/
theorem Queued.before_dequeue (hg : WellKeyed g)
    (h : Queued req (dequeueWorkflows now req g).2 row) :
    Queued req g row ∧ row ∉ (waitingRows req g).take (claimBudget now req g).toNat := by
  obtain ⟨id, hid⟩ := AList.mem_values.mp h.mem
  rw [lookup_dequeueWorkflows] at hid
  split at hid
  · obtain ⟨old, -, rfl⟩ := Option.map_eq_some_iff.mp hid
    cases h.enqueued
  · next hclaimed =>
      refine ⟨⟨AList.mem_values.mpr ⟨id, hid⟩, h.onQueue, h.enqueued⟩, fun htake => hclaimed ?_⟩
      rw [← hg id row hid, claimIds_eq]
      exact mem_map_of_mem htake

/-- The rows a claim takes stand before those that are left. -/
theorem before_of_taken (hg : WellKeyed g) {n : Nat} (ha : a ∈ (waitingRows req g).take n)
    (hb : b ∈ waitingRows req g) (hleft : b ∉ (waitingRows req g).take n) : Before a b := by
  have hsorted : (waitingRows req g).Pairwise Before := pairwise_waitingRows hg
  rw [← take_append_drop n (waitingRows req g)] at hsorted hb
  have hdrop := (mem_append.mp hb).resolve_left hleft
  exact (pairwise_append.mp hsorted).2.2 a ha b hdrop

/-- **One claim.** -/
theorem firstCome_dequeue (hg : WellKeyed g)
    (hversion : ∀ row, Queued req g row → row.appVersion = req.appVersion)
    (horder : ∀ a b, Queued req g a → Queued req g b → a.createdAt < b.createdAt → Before a b)
    (hrows : (dequeueWorkflows now req g).1 = .ok rows) :
    ∀ row ∈ rows, ∀ other, Queued req (dequeueWorkflows now req g).2 other →
      ¬other.createdAt < row.createdAt := by
  rw [dequeueWorkflows_returns hg, Except.ok.injEq] at hrows
  subst hrows
  intro row' hrow' other hother hlt
  obtain ⟨row, hrow, rfl⟩ := mem_map.mp hrow'
  obtain ⟨hbefore, hleft⟩ := hother.before_dequeue hg
  have hwaits : other ∈ waitingRows req g :=
    mem_waitingRows.mpr ⟨hbefore.mem, hbefore.onQueue, hbefore.enqueued, .inl (hversion _ hbefore)⟩
  obtain ⟨hmem, hrowWaits⟩ := mem_waitingRows.mp (mem_of_mem_take hrow)
  exact (before_of_taken hg hrow hwaits hleft).asymm
    (horder other row hbefore ⟨hmem, hrowWaits.onQueue, hrowWaits.enqueued⟩ hlt)

section

variable [Serde DateTime] {X : TextCodec} {E : Engine} {c c' : EnginePool}

/-- **First come, first served**, for every claim of every run that finds its rows in order. -/
theorem claims_first_come {w₀ : World Inner} (hg : WellKeyed w₀.store)
    (hrun : Pool.Run (engine (provider X) E) (fun _ _ _ => True) ⟨w₀, []⟩ c)
    {t : Proc Eff Answer Unit} {ev : Proc.Event Eff Answer (World Inner)}
    (hstep : Pool.Step (engine (provider X) E) c (.ran t (some ev)) c') (hversion : Versioned ev)
    (horder : InOrder ev) : FirstCome ev := by
  have hkeyed : WellKeyed c.world.store := (sound_run hrun ⟨hg, nofun⟩).keyed
  cases hstep with
  | run h =>
    obtain ⟨rfl, rfl, hhandle⟩ := h.1.event
    obtain ⟨call, before, answer, after⟩ := ev
    unfold FirstCome
    split
    · next req _ rows _ heq =>
        cases heq
        have hclaim : (provider X).handle (.provider (.dequeueWorkflows req)) before (.ok rows)
          after := hhandle
        obtain ⟨uuid, hanswer, rfl⟩ := Provider.handle_provider.mp hclaim
        exact firstCome_dequeue hkeyed hversion horder hanswer.symm
    · trivial

end

/-! ## A younger row goes first -/

section

attribute [local instance] serdeNanos

/-- A queue without priorities. -/
def plainQueue : WorkflowQueue := { name := "q", maxTasksPerIteration := 1 }

/-- An engine that serves it. -/
def clerk : Engine where
  registry := [("report", fun _ _ => .done (.returned (.ok .null)))]
  queues := [plainQueue]
  appVersion := "1"

/-- A run with a priority is put on the queue. -/
def enqueued (id : String) (priority : Int) : Request :=
  .start "" Unit "report" () { workflowId := some id, queue := some "q", priority }

/-- Its row. -/
def enqueuedRow (id : String) (priority : Int) (now : DateTime) : WorkflowStatus :=
  newRun clerk.runtime now.timestampMillis now id "report" .null
    { workflowId := some id, queue := some "q", priority } none {}

/-- `old` is put on the queue, and a millisecond later `young` is. -/
def oldAndYoung (old young : Int) : Inner :=
  (insertWorkflowStatus (enqueuedRow "young" young ⟨1000000⟩)
    (insertWorkflowStatus (enqueuedRow "old" old ⟨0⟩) {}).2).2

/-- The claim of one row. -/
def oneClaim : DequeueRequest := plainQueue.request clerk none 1

/-- The dispatcher makes it. -/
def claimOne (old young : Int) : Proc.Event Eff Answer (World Inner) where
  call := .provider (.dequeueWorkflows oneClaim)
  before := ⟨oldAndYoung old young, ⟨1000000⟩⟩
  answer := (dequeueWorkflows ⟨1000000⟩ oneClaim (oldAndYoung old young)).1
  after := ⟨(dequeueWorkflows ⟨1000000⟩ oneClaim (oldAndYoung old young)).2, ⟨1000000⟩⟩

theorem claimOne_happens (old young : Int) : ∃ c c' t,
    Pool.Run (engine (provider noText) clerk) (fun _ _ _ => True) ⟨⟨{}, ⟨0⟩⟩, []⟩ c ∧
      Pool.Step (engine (provider noText) clerk) c (.ran t (some (claimOne old young))) c' := by
  have hlate : (⟨0⟩ : DateTime) ≤ ⟨1000000⟩ := by decide
  have htick (g : Inner) : Tick (⟨g, ⟨0⟩⟩ : World Inner) ⟨g, ⟨1000000⟩⟩ := ⟨rfl, hlate⟩
  have hstart : Pool.Run (engine (provider noText) clerk) (fun _ _ _ => True) ⟨⟨{}, ⟨0⟩⟩, []⟩ _ :=
    (Pool.Run.refl _).enter ⟨enqueued "old" old, trivial, rfl⟩ trivial
  have hread := (hstart.turn 0 rfl trivial).act 0 rfl _ ⟨rfl, rfl⟩ trivial
  have hold := (hread.act 0 rfl _ ⟨rfl, rfl⟩ trivial).act 0 rfl _ told trivial
  have hlater := (hold.tail (.env (htick _)) trivial).enter
    ⟨enqueued "young" young, trivial, rfl⟩ trivial
  have hread := (hlater.turn 0 rfl trivial).act 0 rfl _ ⟨rfl, rfl⟩ trivial
  have hyoung := (hread.act 0 rfl _ ⟨rfl, rfl⟩ trivial).act 0 rfl _ told trivial
  have hserve := hyoung.enter ⟨.queueDispatchLoop plainQueue, mem_cons_self, rfl⟩ trivial
  have hawake := (hserve.turn 0 rfl trivial).act 0 rfl false rfl trivial
  have hdelayed := (hawake.act 0 rfl _ ⟨rfl, rfl⟩ trivial).act 0 rfl _ told trivial
  have hcounted := hdelayed.act 0 rfl 0 rfl trivial
  exact ⟨_, _, _, hcounted, @Pool.Step.run _ _ _ _ [] _ _ _ _ _ _ _
    ⟨.call (told (c := .dequeueWorkflows oneClaim)), rfl⟩⟩

theorem queued_oldAndYoung {old young : Int} :
    Queued oneClaim (oldAndYoung old young) row ↔
      row = enqueuedRow "young" young ⟨1000000⟩ ∨ row = enqueuedRow "old" old ⟨0⟩ := by
  have hvalues : (oldAndYoung old young).workflows.values =
    [enqueuedRow "young" young ⟨1000000⟩, enqueuedRow "old" old ⟨0⟩] := rfl
  rw [← mem_pair, ← hvalues]
  refine ⟨Queued.mem, fun h => ⟨h, ?_, ?_⟩⟩
  all_goals rw [hvalues, mem_pair] at h
  · rcases h with rfl | rfl <;> exact ⟨rfl, nofun⟩
  · rcases h with rfl | rfl <;> rfl

theorem versioned_claimOne (old young : Int) : Versioned (claimOne old young) := by
  intro row hrow
  rcases queued_oldAndYoung.mp hrow with rfl | rfl <;> rfl

/-- Rows with one priority are in order. -/
theorem claims_first_come_pair : ∃ c c' t,
    Pool.Run (engine (provider noText) clerk) (fun _ _ _ => True) ⟨⟨{}, ⟨0⟩⟩, []⟩ c ∧
      Pool.Step (engine (provider noText) clerk) c (.ran t (some (claimOne 0 0))) c' ∧
      InOrder (claimOne 0 0) ∧ FirstCome (claimOne 0 0) := by
  have horder : InOrder (claimOne 0 0) := by
    intro a b ha hb hlt
    rcases queued_oldAndYoung.mp ha with rfl | rfl <;> rcases queued_oldAndYoung.mp
      hb with rfl | rfl
    · exact absurd hlt (by decide)
    · exact absurd hlt (by decide)
    · exact .inr ⟨rfl, .inl (by decide)⟩
    · exact absurd hlt (by decide)
  obtain ⟨c, c', t, hrun, hstep⟩ := claimOne_happens 0 0
  exact ⟨c, c', t, hrun, hstep, horder,
    claims_first_come wellKeyed_empty hrun hstep (versioned_claimOne 0 0) horder⟩

/-- **A younger row overtakes**: it has the smaller priority, and the queue has no priorities. -/
theorem overtaken : plainQueue.priorityEnabled = false ∧ ∃ c c' t,
    Pool.Run (engine (provider noText) clerk) (fun _ _ _ => True) ⟨⟨{}, ⟨0⟩⟩, []⟩ c ∧
      Pool.Step (engine (provider noText) clerk) c (.ran t (some (claimOne 5 1))) c' ∧
      Versioned (claimOne 5 1) ∧ ¬FirstCome (claimOne 5 1) := by
  obtain ⟨c, c', t, hrun, hstep⟩ := claimOne_happens 5 1
  refine ⟨rfl, c, c', t, hrun, hstep, versioned_claimOne 5 1, fun hfirst => ?_⟩
  have hsorted : [((1 : Int), (1 : Int), "young"), (5, 0, "old")].Pairwise
      fun a b => claimLe a b = true := by
    decide
  have hids : claimIds ⟨1000000⟩ oneClaim (oldAndYoung 5 1) = ["young"] :=
    claimIds_of_pairwise rfl hsorted
  have hrows : (dequeueWorkflows ⟨1000000⟩ oneClaim (oldAndYoung 5 1)).1 =
      .ok [claimRow ⟨1000000⟩ oneClaim (enqueuedRow "young" 1 ⟨1000000⟩)] := by
    rw [dequeueWorkflows, hids]
    rfl
  have hold : Queued oneClaim (oldAndYoung 5 1) (enqueuedRow "old" 5 ⟨0⟩) :=
    queued_oldAndYoung.mpr (.inr rfl)
  have hleft : Queued oneClaim (dequeueWorkflows ⟨1000000⟩ oneClaim (oldAndYoung 5 1)).2
      (enqueuedRow "old" 5 ⟨0⟩) := by
    rw [dequeueWorkflows, hids]
    exact ⟨mem_cons_of_mem _ mem_cons_self, hold.onQueue, rfl⟩
  exact hfirst.of_ok hrows mem_cons_self hleft (by decide)

end

end Durare.Memory
