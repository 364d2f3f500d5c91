import Durare.Context.Journal
import Durare.Engine.Footprints
import Durare.Engine.RowSteps

/-!
# Engine/Workers — how many runs a dispatcher has going

One dispatcher and the runs it has started.  It counts them by partition: the count is read before a
claim, one more is counted for every run that is started, and the guard of a run counts it off when
the run is over — however it ends.  In between a claim is made for what the cap leaves, so that the
count can only be too high.

* `Desk` — the counts, and the one the dispatcher holds; `Desk.handle` how effects move them.
* `Workshop.Step` — a step of the dispatcher, the end of a run, anything else that happens.
* `runs_le_workerConcurrency` — the unfinished runs of a partition, in every state reached.
-/

namespace Durare

open List

/-- What a dispatcher sees: the world, its counts by partition, and the partition whose count it
holds. -/
structure Desk (σ : Type) where
  world : World σ
  localRunning : String → Nat
  counter : String

/-- One more, or one less, in one partition. -/
def Desk.recount {σ : Type} (d : Desk σ) (partition : String) (f : Nat → Nat) : Desk σ :=
  { d with localRunning := fun key => if key = partition then f (d.localRunning key)
    else d.localRunning key }

variable {σ : Type}

theorem Desk.recount_localRunning (d : Desk σ) (partition : String) (f : Nat → Nat) (key : String) :
    (d.recount partition f).localRunning key =
      if key = partition then f (d.localRunning key) else d.localRunning key := rfl

/-- How the effects of a dispatcher are answered.  Reading a count takes hold of it, and a start is
counted there; a call of the backend may fail. -/
def Desk.handle (P : Provider) : (e : Eff) → Desk P.State → Answer e → Desk P.State → Prop
  | .localRunning _ partition, d, r, d' => r = d.localRunning partition ∧
      d' = { d with counter := partition }
  | .spawn _ _ _ _ _, d, _, d' => d' = d.recount d.counter (· + 1)
  | .provider c, d, r, d' => (P.handle (.provider c) d.world r d'.world ∨ ∃ e, r = .error e) ∧
      d'.localRunning = d.localRunning ∧ d'.counter = d.counter
  | e, d, r, d' => P.handle e d.world r d'.world ∧ d'.localRunning = d.localRunning ∧
      d'.counter = d.counter

/-- A dispatcher at a point of its loop, and the partitions of the runs that it has started and that
have not finished. -/
structure Workshop (σ : Type) where
  dispatcher : Proc Eff Answer Unit
  desk : Desk σ
  runs : List String

namespace Workshop

/-- The run an effect starts. -/
def started {σ : Type} (e : Option (Proc.Event Eff Answer (Desk σ))) : List String :=
  match e with
  | some ⟨.spawn _ _ _ _ _, d, _, _⟩ => [d.counter]
  | _ => []

/-- One step: the dispatcher takes one, a run is over — it has returned or panicked, or it was
dropped — or the world is moved, by the runs or by anyone else. -/
inductive Step (P : Provider) : Workshop P.State → Workshop P.State → Prop where
  | dispatch {p p' : Proc Eff Answer Unit} {d d' : Desk P.State} {runs : List String}
      {e : Option (Proc.Event Eff Answer (Desk P.State))}
      (h : Proc.Step (Desk.handle P) p d e p' d') : Step P ⟨p, d, runs⟩ ⟨p', d', started e ++ runs⟩
  | finish {p : Proc Eff Answer Unit} {d : Desk P.State} {pre post : List String}
      {partition : String} : Step P ⟨p, d, pre ++ partition :: post⟩
        ⟨p, d.recount partition (· - 1), pre ++ post⟩
  | env {p : Proc Eff Answer Unit} {d : Desk P.State} {runs : List String} {w : World P.State} :
      Step P ⟨p, d, runs⟩ ⟨p, { d with world := w }, runs⟩

/-- The dispatcher of a queue, as it is launched. -/
def launched {σ : Type} (E : Engine) (queue : WorkflowQueue) (w : World σ) : Workshop σ :=
  ⟨(queueDispatchLoop E queue).task, ⟨w, fun _ => 0, ""⟩, []⟩

end Workshop

/-! ## The dispatcher keeps to its cap -/

open Verb

/-- A claim returns no more rows than it was asked for. -/
def Provider.Limited (P : Provider) : Prop := ∀ req now uuid g rows,
  (P.call (.dequeueWorkflows req) now uuid g).1 = .ok rows → rows.length ≤ req.maxTasks.toNat

/-- Neither a count nor a start. -/
def Eff.Uncounted : Eff → Prop
  | .localRunning _ _ | .spawn _ _ _ _ _ => False
  | _ => True

/-- Others only count off, and no effect of the dispatcher exceeds the cap. -/
def capping (P : Provider) (cap : Nat) : Proc.Judge Eff Answer (Desk P.State) where
  handle := Desk.handle P
  rely d d' := d'.counter = d.counter ∧ ∀ key, d'.localRunning key ≤ d.localRunning key
  guar _ d _ d' := (∀ key, d.localRunning key ≤ cap) → ∀ key, d'.localRunning key ≤ cap

section

variable {P : Provider} {cap n : Nat} {E : Engine} {queue : WorkflowQueue} {s : CtxState}
  {d : Desk P.State}

theorem Desk.handle_uncounted {e : Eff} (he : e.Uncounted) {d' : Desk P.State} {r : Answer e}
    (h : Desk.handle P e d r d') : d'.localRunning = d.localRunning ∧ d'.counter = d.counter := by
  cases e with
  | localRunning | spawn => cases he
  | _ => exact h.2

/-- What makes no start and holds no count keeps the cap, and what it finds of the count. -/
theorem wp_uncounted {α : Type} {x : Verb α} (hx : x.Calls Eff.Uncounted)
    (h : d.localRunning d.counter ≤ n) :
    wp (capping P cap) x (fun _ _ d' => d'.localRunning d'.counter ≤ n) s d := by
  refine (hx s).keeps (I := fun d => d.localRunning d.counter ≤ n) ?_ ?_ d h
  · rintro d₁ d₂ hd₁ ⟨hcounter, hless⟩
    exact hcounter ▸ (hless _).trans hd₁
  · intro e he d₁ r d₂ hd₁ hr
    obtain ⟨hrunning, hcounter⟩ := Desk.handle_uncounted he hr
    refine ⟨fun hcap => hrunning ▸ hcap, ?_⟩
    rw [hrunning, hcounter]
    exact hd₁

theorem wp_dispatchClaimed {wf : WorkflowStatus} (hn : n + 1 ≤ cap)
    (h : d.localRunning d.counter ≤ n) :
    wp (capping P cap) (dispatchClaimed E wf) (fun _ _ d' => d'.localRunning d'.counter ≤ n + 1) s
      d := by
  unfold dispatchClaimed
  dsimp only
  split
  · rintro d₁ ⟨hcounter, hless⟩ ⟨⟩ d₂ rfl
    have hfew : d₁.localRunning d₁.counter ≤ n := hcounter ▸ (hless _).trans h
    refine ⟨fun hcap key => ?_, ?_⟩
    · rw [Desk.recount_localRunning]
      split
      · next hkey =>
          subst hkey
          omega
      · exact hcap key
    · change (d₁.recount d₁.counter (· + 1)).localRunning d₁.counter ≤ n + 1
      rw [Desk.recount_localRunning, if_pos rfl]
      omega
  · have hless : d.localRunning d.counter ≤ n + 1 := by omega
    exact wp_uncounted (calls_bind (calls_attempt (calls_ask trivial)) fun _ => calls_pure) hless

/-- All the rows of a claim are dispatched, if there is room for them. -/
theorem wp_dispatchAll {claimed : List WorkflowStatus} (hroom : claimed.length + n ≤ cap)
    (h : d.localRunning d.counter ≤ n) :
    wp (capping P cap) (forEach (dispatchClaimed E) claimed) (fun _ _ _ => True) s d := by
  induction claimed generalizing n s d with
  | nil => trivial
  | cons wf claimed ih =>
    rw [length_cons] at hroom
    refine wp_bind (wp_mono ?_ (wp_dispatchClaimed (by omega) h))
    rintro (_ | _) s' d' h'
    · trivial
    · exact ih (by omega) h'

theorem WorkflowQueue.maxTasks_le (hcap : queue.workerConcurrency = some cap) (running : Nat) :
    queue.maxTasks running ≤ cap - running := by
  unfold WorkflowQueue.maxTasks
  rw [hcap]
  exact Nat.min_le_left _ _

/-- The method keeps the cap. -/
def KeepsCap (P : Provider) (cap : Nat) {α : Type} (x : Verb α) : Prop :=
  Moves (capping P cap) (fun _ _ => True) x

theorem capped_of_uncounted {α : Type} {x : Verb α} (hx : x.Calls Eff.Uncounted) :
    KeepsCap P cap x :=
  fun _ _ => wp_mono (fun _ _ _ _ => trivial) (wp_uncounted hx le_rfl)

/-- **One partition**: the claim is for what the cap leaves of the count, and the count does not
grow until the claimed rows are started. -/
theorem capped_dispatchPartition (hP : P.Limited) (hcap : queue.workerConcurrency = some cap)
    {key : Option String} : KeepsCap P cap (dispatchPartition E queue key) := by
  intro s d
  refine wp_perform ?_
  rintro d₁ - running d₂ ⟨rfl, rfl⟩
  refine ⟨fun h => h, ?_⟩
  have hmax := queue.maxTasks_le hcap (d₁.localRunning (key.getD ""))
  dsimp only
  split
  · trivial
  · refine wp_bind (wp_attempt ?_)
    rintro d₃ ⟨hcounter, hless⟩ r d₄ ⟨hcall, hrunning, hcounter'⟩
    refine ⟨fun h => hrunning ▸ h, ?_⟩
    have hfew : d₄.localRunning d₄.counter ≤ d₁.localRunning (key.getD "") := by
      rw [hrunning, hcounter', hcounter]
      exact hless _
    cases r with
    | error e => trivial
    | ok claimed =>
      obtain hcall | ⟨e, he⟩ := hcall
      · obtain ⟨uuid, hanswer, -⟩ := Provider.handle_provider.mp hcall
        have hlength : claimed.length ≤ queue.maxTasks (d₁.localRunning (key.getD "")) :=
          hP _ _ _ _ _ hanswer.symm
        have hroom : claimed.length + d₁.localRunning (key.getD "") ≤ cap := by omega
        have hall : wp (capping P cap) (forEach (dispatchClaimed E) claimed >>= fun _ => pure false)
            (fun _ _ _ => True) s d₄ := by
          refine wp_bind (wp_mono ?_ (wp_dispatchAll hroom hfew))
          rintro (_ | _) _ _ -
          · trivial
          · trivial
        exact hall
      · cases he

theorem capped_queueDispatchLoop (hP : P.Limited) (hcap : queue.workerConcurrency = some cap) :
    KeepsCap P cap (queueDispatchLoop E queue) := by
  refine Moves.queueDispatchLoop (fun _ => trivial) (fun _ _ => trivial) (fun hx => ?_)
    fun _ => capped_dispatchPartition hP hcap
  refine capped_of_uncounted fun s => (hx s).mono fun e he => ?_
  cases he with
  | _ => trivial

end

/-! ## The backends -/

theorem Memory.limited (X : TextCodec) : (Memory.provider X).Limited := by
  intro req now uuid g rows h
  cases h
  refine (length_filterMap_le _ _).trans ?_
  have hbudget : Memory.claimBudget now req g ≤ req.maxTasks := by
    unfold Memory.claimBudget
    exact DequeueRequest.budget_le_maxTasks
  simp only [Memory.claimIds, length_map, length_take]
  omega

theorem Sqlite.limited (X : TextCodec) (s : Serializer) : (Sqlite.provider X s).Limited := by
  intro req now uuid g rows h
  cases h
  refine (length_filterMap_le _ _).trans ?_
  have hbudget : Sqlite.claimBudget now req g ≤ req.maxTasks := by
    unfold Sqlite.claimBudget
    exact DequeueRequest.budget_le_maxTasks
  simp only [Sqlite.claimIds, length_map, length_take]
  omega

theorem Backend.limited : (b : Backend) → b.provider.Limited
  | memory X => Memory.limited X
  | sqlite X s _ => Sqlite.limited X s

/-! ## The unfinished runs -/

section

variable {P : Provider} {cap : Nat}

/-- Every unfinished run is counted, the counts are within the cap, and the dispatcher keeps it. -/
structure Workshop.Kept (P : Provider) (cap : Nat) (c : Workshop P.State) : Prop where
  counted : ∀ key, c.runs.count key ≤ c.desk.localRunning key
  capped : ∀ key, c.desk.localRunning key ≤ cap
  safe : Proc.Safe (capping P cap) c.dispatcher (fun _ _ => True) c.desk

theorem Workshop.count_started {e : Eff} {d d' : Desk P.State} {r : Answer e}
    (h : Desk.handle P e d r d') (key : String) :
    (started (some ⟨e, d, r, d'⟩)).count key + d.localRunning key = d'.localRunning key := by
  cases e with
  | spawn =>
    obtain rfl := h
    rw [Desk.recount_localRunning]
    by_cases hkey : key = d.counter
    · subst hkey
      simp [started, Nat.add_comm]
    · simp [started, hkey, Ne.symm hkey]
  | localRunning queue partition =>
    obtain ⟨-, rfl⟩ := h
    exact Nat.zero_add _
  | _ => simp [started, h.2.1]

theorem Workshop.Kept.step {c c' : Workshop P.State} (h : c.Kept P cap)
    (hs : Workshop.Step P c c') : c'.Kept P cap := by
  have hrefl : ∀ d, (capping P cap).rely d d := fun _ => ⟨rfl, fun _ => le_rfl⟩
  have htrans : ∀ {d₁ d₂ d₃}, (capping P cap).rely d₁ d₂ → (capping P cap).rely d₂ d₃ →
      (capping P cap).rely d₁ d₃ :=
    fun h₁ h₂ => ⟨h₂.1.trans h₁.1, fun key => (h₂.2 key).trans (h₁.2 key)⟩
  cases hs with
  | @dispatch p p' d d' runs e hstep =>
    obtain ⟨hguar, hsafe⟩ := Proc.wp_step hrefl h.safe hstep
    cases e with
    | none =>
      obtain rfl := hstep.silent
      exact ⟨h.counted, h.capped, hsafe⟩
    | some ev =>
      obtain ⟨rfl, rfl, hhandle⟩ := hstep.event
      refine ⟨fun key => ?_, hguar _ rfl h.capped, hsafe⟩
      have hruns : runs.count key ≤ ev.before.localRunning key := h.counted key
      have hstarted : (Workshop.started (some ev)).count key + ev.before.localRunning key =
        ev.after.localRunning key := Workshop.count_started hhandle key
      change (Workshop.started (some ev) ++ runs).count key ≤ ev.after.localRunning key
      rw [count_append]
      omega
  | @finish p d pre post partition =>
    have hless : ∀ key, (d.recount partition (· - 1)).localRunning key ≤ d.localRunning key := by
      intro key
      rw [Desk.recount_localRunning]
      split
      · exact Nat.sub_le _ _
      · exact le_rfl
    refine ⟨fun key => ?_, fun key => (hless key).trans (h.capped key),
      h.safe.env htrans ⟨rfl, hless⟩⟩
    have hruns := h.counted key
    rw [Desk.recount_localRunning]
    simp only [count_append, count_cons, beq_iff_eq] at hruns ⊢
    split
    · next hkey =>
        rw [if_pos hkey.symm] at hruns
        omega
    · omega
  | env => exact ⟨h.counted, h.capped, h.safe.env htrans ⟨rfl, fun _ => le_rfl⟩⟩

end

/-- **The worker cap**: in every state a dispatcher can get into with the runs it has started, those
of one partition that have not finished are no more than the cap. -/
theorem runs_le_workerConcurrency (b : Backend) (E : Engine) {queue : WorkflowQueue} {cap : Nat}
    (hcap : queue.workerConcurrency = some cap) {w : World b.provider.State}
    {c : Workshop b.provider.State}
    (hrun : Relation.ReflTransGen (Workshop.Step b.provider) (.launched E queue w) c)
    (partition : String) : c.runs.count partition ≤ cap := by
  have hkept : c.Kept b.provider cap := by
    induction hrun with
    | refl =>
      refine ⟨fun _ => le_rfl, fun _ => Nat.zero_le _, _, ⟨rfl, fun _ => le_rfl⟩, ?_⟩
      exact Proc.wp_bind (Proc.wp_mono (fun _ _ _ => trivial)
        (capped_queueDispatchLoop b.limited hcap {} _))
    | tail _ hstep ih => exact ih.step hstep
  exact (hkept.counted partition).trans (hkept.capped partition)

/-! ## A run that is going -/

section

variable {P : Provider} {a : Workshop P.State} {p : Proc Eff Answer Unit} {d d' : Desk P.State}
  {runs : List String}

theorem Workshop.act (h : Relation.ReflTransGen (Workshop.Step P) a ⟨p, d, runs⟩) {e : Eff}
    {k : Answer e → Proc Eff Answer Unit} (hp : p = .call e k) (r : Answer e)
    (hr : Desk.handle P e d r d') :
    Relation.ReflTransGen (Workshop.Step P) a
      ⟨k r, d', Workshop.started (some ⟨e, d, r, d'⟩) ++ runs⟩ := by
  subst hp
  exact h.tail (.dispatch (.call hr))

theorem Workshop.turn (h : Relation.ReflTransGen (Workshop.Step P) a ⟨p, d, runs⟩) {β : Type}
    {body : σ → Proc Eff Answer (σ ⊕ β)} {s : σ} {k : β → Proc Eff Answer Unit}
    (hp : p = .iter body s k) :
    Relation.ReflTransGen (Workshop.Step P) a ⟨(body s).bind (Proc.again body k), d, runs⟩ := by
  subst hp
  exact h.tail (.dispatch .unfold)

end

/-- A queue for two runs at a time. -/
def twoWorkers : WorkflowQueue := { name := "q", workerConcurrency := some 2 }

/-- An engine that serves it. -/
def twoWorkersEngine : Engine where
  registry := [("report", fun _ _ => .done (.returned (.ok .null)))]
  queues := [twoWorkers]
  appVersion := ""

/-- A row that waits on it. -/
def waitingReport (id : String) : WorkflowStatus :=
  { WorkflowStatus.new ⟨0⟩ id "report" .null .enqueued "" "" with queueName := some "q" }

def twoReports : World Memory.Inner :=
  ⟨(Memory.insertWorkflowStatus (waitingReport "r")
    (Memory.insertWorkflowStatus (waitingReport "s") {}).2).2, ⟨0⟩⟩

/-- The claim of the dispatcher. -/
def reportClaim : DequeueRequest := twoWorkers.request twoWorkersEngine none 2

/-- Two rows are claimed, and both runs are going. -/
theorem runs_le_workerConcurrency_two : ∃ c : Workshop Memory.Inner,
    Relation.ReflTransGen (Workshop.Step (Memory.provider noText))
      (.launched twoWorkersEngine twoWorkers twoReports) c ∧
    c.runs.count "" = 2 ∧ c.runs.count "" ≤ 2 := by
  have hstart : Relation.ReflTransGen (Workshop.Step (Memory.provider noText)) _
    (.launched twoWorkersEngine twoWorkers twoReports) := .refl
  have hawake := Workshop.act (Workshop.turn hstart rfl) rfl false ⟨rfl, rfl, rfl⟩
  have hread := Workshop.act hawake rfl _ ⟨⟨rfl, rfl⟩, rfl, rfl⟩
  have hdelayed := Workshop.act hread rfl _ ⟨.inl told, rfl, rfl⟩
  have hcounted := Workshop.act hdelayed rfl _ ⟨rfl, rfl⟩
  have hids : Memory.claimIds ⟨0⟩ reportClaim twoReports.store = ["r", "s"] :=
    Memory.claimIds_of_pairwise rfl (by decide)
  have hclaim : Desk.handle (Memory.provider noText) (.provider (.dequeueWorkflows reportClaim))
      ⟨twoReports, fun _ => 0, ""⟩
      (.ok (["r", "s"].map fun id => Memory.claimRow ⟨0⟩ reportClaim (waitingReport id)))
      ⟨⟨(Memory.dequeueWorkflows ⟨0⟩ reportClaim twoReports.store).2, ⟨0⟩⟩, fun _ => 0, ""⟩ := by
    refine ⟨.inl ⟨"", Prod.ext ?_ rfl, rfl⟩, rfl, rfl⟩
    change (Memory.dequeueWorkflows ⟨0⟩ reportClaim twoReports.store).1 = _
    rw [Memory.dequeueWorkflows, hids]
    rfl
  have hclaimed := Workshop.act hcounted rfl _ hclaim
  have hboth := Workshop.act (Workshop.act hclaimed rfl () rfl) rfl () rfl
  exact ⟨_, hboth, rfl, runs_le_workerConcurrency (.memory noText) twoWorkersEngine rfl hboth ""⟩

end Durare
