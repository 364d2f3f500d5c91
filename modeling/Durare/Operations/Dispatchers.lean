import Durare.Store.Postgres

/-!
# Operations/Dispatchers — dispatchers of one queue on PostgreSQL

Each dispatcher counts in its snapshot, and locks rows for what the limit leaves.  The snapshots of
two of them may be the same, and then both find the same room: whether the limit holds depends on
the second scan coming upon a row of the first.  Under a global cap the scan fails on such a row,
but it need not meet one: rows of another version, or of a higher priority that arrived in between,
keep the two apart.  Under a rate limit alone the scan skips the rows of the other on purpose.

* `global_cap_of_meeting`, `rate_limit_of_meeting` — the limits hold in every run in which scans run
  into their rivals.
-/

namespace Durare.Postgres

open List

open Snapshots

/-- A dispatcher at a point of its claim. -/
abbrev Dispatcher :=
  Session String StatusRow (List VersionInfo) (Except Error (List WorkflowStatus))

/-- Any number of dispatchers with some kind of request, while `ENQUEUED` rows are inserted. -/
def dispatchers (X : TextCodec) (s : Serializer) (requests : DateTime → DequeueRequest → Prop) :
    Threads Dispatcher Db
      (Option (Proc.Event Stmt Sql.Answer (Db × Option (Transaction String StatusRow)))) :=
  sessions (fun code => ∃ now req, requests now req ∧ code = dequeueWorkflows X s now req)
    fun row => row.status = .enqueued

/-! ## A dispatcher keeps to its claims -/

variable {S : Option (Version String StatusRow)} {maxTasks : Int} {p : StatusRow → Bool}

section

variable {counted : StatusRow → Bool} {cap : Int} {α β : Type}

/-- A query in a transaction, with what holds if it succeeds. -/
def Serves (counted : StatusRow → Bool) (cap : Int) (x : Query α)
    (Q : α → Option (Transaction String StatusRow) → Prop)
    (tx : Option (Transaction String StatusRow)) : Prop :=
  ∀ db : Db, Proc.wp (claiming counted cap) x.run (fun r w => ∀ a, r = .ok a → Q a w.2) (db, tx)

variable {Q : α → Option (Transaction String StatusRow) → Prop}
  {tx : Option (Transaction String StatusRow)}

theorem Serves.mono {x : Query α} {Q' : α → Option (Transaction String StatusRow) → Prop}
    (h : Serves counted cap x Q tx) (hQ : ∀ a tx, Q a tx → Q' a tx) :
    Serves counted cap x Q' tx :=
  fun db => Proc.wp_mono (fun _ w hr a ha => hQ a w.2 (hr a ha)) (h db)

theorem serves_pure {a : α} (h : Q a tx) : Serves counted cap (pure a : Query α) Q tx := by
  rintro db _ ⟨rfl⟩
  exact h

theorem serves_bind {x : Query α} {f : α → Query β}
    {Q : β → Option (Transaction String StatusRow) → Prop}
    (h : Serves counted cap x (fun a => Serves counted cap (f a) Q) tx) :
    Serves counted cap (x >>= f) Q tx := by
  intro db
  refine Proc.wp_bind (Proc.wp_mono ?_ (h db))
  rintro (e | a) ⟨db', tx'⟩ hr
  · rintro b ⟨⟩
  · exact hr a rfl db'

theorem serves_run {stmt : Stmt} {Q : stmt.Result → Option (Transaction String StatusRow) → Prop}
    (hclaims : Claims counted cap tx stmt)
    (h : ∀ db r db' tx', stmt.Exec db tx (.ok r) db' tx' → Q r tx') :
    Serves counted cap (run stmt) Q tx := by
  rintro db ⟨db₁, _⟩ rfl r ⟨db₂, tx₂⟩ hr
  refine ⟨hclaims, ?_⟩
  rintro a ha
  cases r with
  | error e => cases ha
  | ok r =>
    obtain rfl : r = a := Except.ok.inj ha
    exact h db₁ r db₂ tx₂ hr

/-- A transaction raised to repeatable read, before and after its first query. -/
def raised (S : Option (Version String StatusRow)) : Transaction String StatusRow :=
  { isolation := .repeatableRead, snapshot := S }

/-- The first query fixes the snapshot, and all queries read it. -/
theorem serves_select {query : Table String StatusRow → List VersionInfo → α}
    (h : ∀ S' versions, (∀ S₀, S = some S₀ → S' = S₀) →
      Q (query S'.rows versions) (some (raised (some S')))) :
    Serves counted cap (run (.select α query)) Q (some (raised S)) := by
  refine serves_run trivial fun db r db' tx' hx => ?_
  cases hx with
  | select =>
    have hrows : (raised S).visible db = ((raised S).view db).rows := AList.empty_union
    have hpin : (raised S).pin db = raised (some ((raised S).view db)) := rfl
    rw [hrows, hpin]
    refine h _ db.others ?_
    rintro S₀ rfl
    rfl

theorem serves_count {Q : Int → Option (Transaction String StatusRow) → Prop}
    (h : ∀ S', (∀ S₀, S = some S₀ → S' = S₀) → Q (S'.count p) (some (raised (some S')))) :
    Serves counted cap (count p) Q (some (raised S)) :=
  serves_select fun S' _ hS' => h S' hS'

/-- **The claim after its counts**: it takes no more rows than its snapshot has room for. -/
theorem serves_claim {X : TextCodec} {s : Serializer} {now : DateTime} {req : DequeueRequest}
    {S : Version String StatusRow} (hroom : 0 < maxTasks → S.count counted + maxTasks ≤ cap) :
    Serves counted cap (claim X s now req maxTasks) (fun _ _ => True) (some (raised (some S))) := by
  unfold claim
  split
  · exact serves_pure trivial
  · next hmax =>
      refine serves_bind (serves_select fun S' versions hS' => ?_)
      obtain rfl := hS' S rfl
      refine serves_bind (serves_run ?_ fun db ids db' tx' hx => ?_)
      · rintro t ⟨rfl⟩
        refine ⟨rfl, rfl, S', rfl, ?_⟩
        have := hroom (not_le.mp hmax)
        omega
      · split
        · exact serves_pure trivial
        · refine serves_bind (serves_run ?_ fun _ rows _ _ _ => ?_)
          · cases hx with
            | lock hkeys hfree =>
              rintro t ⟨rfl⟩ k hk
              have hnew : k ∉ ((raised (some S')).pin db).locks := not_mem_nil
              exact mem_append_left _ (mem_filter.mpr ⟨hk, decide_eq_true hnew⟩)
          · refine serves_bind (serves_run trivial fun _ _ _ _ _ => ?_)
            exact serves_pure trivial

/-- A transaction whose first statements keep to the claims keeps to them to its end. -/
theorem claims_dequeueWorkflows {X : TextCodec} {s : Serializer} {now : DateTime}
    {req : DequeueRequest}
    (hlimit : (req.globalConcurrency.isSome || req.rateLimitMax.isSome) = true)
    (h : Serves counted cap (do
      let rated ← rateBudget now.timestampMillis req req.maxTasks
      let maxTasks ← globalBudget req rated
      claim X s now req maxTasks) (fun _ _ => True) (some (raised none))) (db : Db) :
    Proc.wp (claiming counted cap) (dequeueWorkflows X s now req) (fun _ _ => True) (db, none) := by
  have hbegin : Serves counted cap (run .begin) (fun _ tx => tx = some {}) none :=
    serves_run trivial fun _ _ _ _ hx => by
      cases hx with
      | begin => rfl
  refine Proc.wp_bind (Proc.wp_mono ?_ (hbegin db))
  rintro (e | a) ⟨db', tx'⟩ htx
  · trivial
  · obtain rfl : tx' = some {} := htx a rfl
    have hbody : Serves counted cap (dequeueIn X s now req) (fun _ _ => True) (some {}) := by
      refine serves_bind ?_
      rw [isolate, if_pos hlimit]
      refine serves_bind (serves_run trivial fun _ _ _ _ hx => serves_pure ?_)
      cases hx with
      | setTransaction => exact h
    refine Proc.wp_bind (Proc.wp_mono ?_ (hbody db'))
    rintro r ⟨db₁, tx₁⟩ - w rfl r' w' -
    exact ⟨trivial, trivial⟩

/-! ## Budgets -/

variable {limit since : Int} {req : DequeueRequest} {nowMs : Int}
  {S : Option (Version String StatusRow)}

/-- Whatever the rate limit leaves, the transaction goes on with its snapshot. -/
theorem serves_rateBudget :
    Serves counted cap (rateBudget nowMs req maxTasks) (fun _ tx => ∃ S', tx = some (raised S'))
      (some (raised S)) := by
  unfold rateBudget
  split
  · exact serves_bind (serves_count fun S' _ => serves_pure ⟨some S', rfl⟩)
  · exact serves_pure ⟨S, rfl⟩

/-- The global cap leaves what the snapshot has room for. -/
theorem serves_globalBudget (hcap : req.globalConcurrency = some cap) (hnonneg : 0 ≤ cap) :
    Serves counted cap (globalBudget req maxTasks) (fun n tx =>
      ∃ S', tx = some (raised (some S')) ∧
        (0 < n → S'.count (pendingIn req.queueName req.partitionKey) + n ≤ cap))
      (some (raised S)) := by
  unfold globalBudget
  rw [hcap]
  refine serves_bind (serves_count fun S' _ => serves_pure ⟨S', rfl, fun hn => ?_⟩)
  have hleft : leftOf cap (S'.count (pendingIn req.queueName req.partitionKey)) ≤ _ :=
    leftOf_le hnonneg
  omega

theorem startedSince_mono {queue : String} {partition : Option String} {since' : Int}
    (hsince : since ≤ since') {w : StatusRow} (h : startedSince queue partition since' w = true) :
    startedSince queue partition since w = true := by
  simp only [startedSince, Bool.and_eq_true, Option.any_eq_true, decide_eq_true_eq] at h ⊢
  obtain ⟨hrest, t, ht, hlt⟩ := h
  exact ⟨hrest, t, ht, by omega⟩

/-- The rate limit leaves what the snapshot has room for, in any window within the period. -/
theorem serves_rateBudget_window {periodMs : Int} (hlimit : req.rateLimitMax = some limit)
    (hperiod : req.rateLimitPeriodMs = some periodMs) (hnonneg : 0 ≤ limit)
    (hsince : i64 (nowMs - periodMs) ≤ since) :
    Serves counted cap (rateBudget nowMs req maxTasks) (fun n tx =>
      ∃ S', tx = some (raised (some S')) ∧
        (0 < n → S'.count (startedSince req.queueName req.partitionKey since) + n ≤ limit))
      (some (raised S)) := by
  unfold rateBudget
  rw [hlimit, hperiod]
  refine serves_bind (serves_count fun S' _ => serves_pure ⟨S', rfl, fun hn => ?_⟩)
  have hwindow : S'.count (startedSince req.queueName req.partitionKey since) ≤
      S'.count (startedSince req.queueName req.partitionKey (i64 (nowMs - periodMs))) :=
    Int.ofNat_le.mpr (countP_mono_left fun w _ h => startedSince_mono hsince h)
  have hleft : leftOf limit (S'.count (startedSince req.queueName req.partitionKey
    (i64 (nowMs - periodMs)))) ≤ _ := leftOf_le hnonneg
  omega

/-! ## The limits -/

variable {X : TextCodec} {s : Serializer} {queue : String} {partition : Option String}
  {cap limit periodMs since : Int} {rows : Table String StatusRow} {versions : List VersionInfo}
  {c : Pool Dispatcher Db}

/-- A request on the queue under the global cap. -/
def UnderCap (queue : String) (partition : Option String) (cap : Int) (_ : DateTime)
    (req : DequeueRequest) : Prop :=
  req.queueName = queue ∧ req.partitionKey = partition ∧ req.globalConcurrency = some cap

/-- A request on the queue under the rate limit alone, at a time whose window reaches back to
`since`. -/
def UnderRate (queue : String) (partition : Option String) (limit periodMs since : Int)
    (now : DateTime) (req : DequeueRequest) : Prop :=
  req.queueName = queue ∧ req.partitionKey = partition ∧ req.globalConcurrency = none ∧
    req.rateLimitMax = some limit ∧ req.rateLimitPeriodMs = some periodMs ∧
      i64 (now.timestampMillis - periodMs) ≤ since

/-- A database with no transaction in progress. -/
def atRest (rows : Table String StatusRow) (versions : List VersionInfo) : Db where
  latest := { rows := rows }
  others := versions

/-- **The global cap across dispatchers.**  In every run in which scans run into their rivals, the
committed `PENDING` rows are never more than the cap, or than there were before. -/
theorem global_cap_of_meeting (hcap0 : 0 ≤ cap)
    (h : Pool.Run (dispatchers X s (UnderCap queue partition cap))
      (fun a e _ => Meets (pendingIn queue partition) a e) ⟨atRest rows versions, []⟩ c) :
    c.world.latest.count (pendingIn queue partition) ≤
      max cap (rows.values.countP (pendingIn queue partition)) := by
  refine capped_of_run ?_ (fun row hrow => ?_) h
  · rintro _ db ⟨now, req, ⟨rfl, rfl, hcap⟩, rfl⟩
    refine claims_dequeueWorkflows (by simp [hcap]) ?_ db
    refine serves_bind (serves_rateBudget.mono ?_)
    rintro rated _ ⟨S, rfl⟩
    refine serves_bind ((serves_globalBudget hcap hcap0).mono ?_)
    rintro maxTasks _ ⟨S', rfl, hroom⟩
    exact serves_claim hroom
  · simp [pendingIn, hrow]

/-- **The rate limit across dispatchers.**  In every run in which scans run into their rivals, the
starts in the window are never more than the limit, or than there were before. -/
theorem rate_limit_of_meeting (hlimit0 : 0 ≤ limit)
    (h : Pool.Run (dispatchers X s (UnderRate queue partition limit periodMs since))
      (fun a e _ => Meets (startedSince queue partition since) a e) ⟨atRest rows versions, []⟩ c) :
    c.world.latest.count (startedSince queue partition since) ≤
      max limit (rows.values.countP (startedSince queue partition since)) := by
  refine capped_of_run ?_ (fun row hrow => ?_) h
  · rintro _ db ⟨now, req, ⟨rfl, rfl, hnone, hlimit, hperiod, hsince⟩, rfl⟩
    refine claims_dequeueWorkflows (by simp [hlimit]) ?_ db
    refine serves_bind ((serves_rateBudget_window hlimit hperiod hlimit0 hsince).mono ?_)
    rintro rated _ ⟨S, rfl, hroom⟩
    rw [globalBudget, hnone]
    exact serves_bind (serves_pure (serves_claim hroom))
  · simp [startedSince, hrow]

/-! ## Runs on two rows -/

variable {requests : DateTime → DequeueRequest → Prop} {a : Pool Dispatcher Db}
  {ok : Pool Dispatcher Db →
    Pool.Happens Dispatcher
      (Option (Proc.Event Stmt Sql.Answer (Db × Option (Transaction String StatusRow)))) →
    Pool Dispatcher Db → Prop}
  {db db' : Db} {tx' : Option (Transaction String StatusRow)} {ts : List Dispatcher}

theorem execAt (h : Pool.Run (dispatchers X s requests) ok a ⟨db, ts⟩) (i : Nat) {stmt : Stmt}
    {k : stmt.Answer → Proc Stmt Sql.Answer (Except Error (List WorkflowStatus))}
    (ht : ts[i]? = some ⟨.call stmt k, tx⟩) (r : stmt.Answer) (hx : stmt.Exec db tx r db' tx')
    (hok : ok ⟨db, ts⟩ (.ran ⟨.call stmt k, tx⟩ (some ⟨stmt, (db, tx), r, (db', tx')⟩))
      ⟨db', ts.set i ⟨k r, tx'⟩ ++ []⟩) :
    Pool.Run (dispatchers X s requests) ok a ⟨db', ts.set i ⟨k r, tx'⟩ ++ []⟩ := by
  have hstep : Proc.Step execOn (.call stmt k) (db, tx)
      (some ⟨stmt, (db, tx), r, (db', tx')⟩) (k r) (db', tx') := .call hx
  exact h.stepAt i ht ⟨hstep, rfl⟩ hok

end

/-- A row of the queue `q` that waits. -/
def waiting (id : String) (priority : Int) : StatusRow :=
  { workflowUuid := id, name := "report", status := .enqueued, applicationVersion := some "",
    queueName := some "q", priority := priority, createdAt := 0, updatedAt := 0 }

/-- A claim of up to ten rows, under a cap of one. -/
def oneAtATime : DequeueRequest := ⟨"q", "local", "", none, 10, some 1, none, none⟩

/-- A claim of up to ten rows, of which one may start in a minute. -/
def onePerMinute : DequeueRequest := ⟨"q", "local", "", none, 10, none, some 1, some 60000⟩

/-- One row waits on the queue `q`. -/
def oneWaiting : Table String StatusRow := AList.insert "a" (waiting "a" 1) ∅

theorem free_of_single {db : Db} {tx : Transaction String StatusRow} {keys : List String}
    {e : Σ _ : String, StatusRow} (htargets : tx.targets db keys p = [e])
    (hfree : tx.obstacle db e.1 = none) :
    ∀ e' ∈ tx.targets db keys p, tx.obstacle db e'.1 = none := by
  intro e' he'
  rw [htargets, mem_singleton] at he'
  rw [he', hfree]

/-- A scan that can come upon one row only meets its rivals, if that row is one. -/
theorem meetsRivals_of_single {counted : StatusRow → Bool} {db : Db}
    {tx : Transaction String StatusRow} {wait : LockWait} {le : StatusRow → StatusRow → Bool}
    {limit : Nat} {e : Σ _ : String, StatusRow}
    (hrows : ((tx.visible db).entries.filter fun e =>
      p e.2 && !(wait = .skipLocked && tx.lockedByOther db e.1)) = [e])
    (hrival : (∃ k, tx.Contended counted db k) → tx.Contended counted db e.1) :
    MeetsRivals counted db (some tx) (.selectForUpdate wait p le limit) := by
  rintro _ keys ⟨rfl⟩ ⟨order, hperm, -, rfl⟩ hne hcontended
  rw [hrows, perm_singleton] at hperm
  subst hperm
  cases limit with
  | zero => exact absurd rfl hne
  | succ limit => exact ⟨e.1, by simp, hrival hcontended⟩

theorem meets_of_ran {counted : StatusRow → Bool}
    {a : Pool Dispatcher Db}
    {t : Dispatcher}
    {ev : Proc.Event Stmt Sql.Answer (Db × Option (Transaction String StatusRow))}
    (h : MeetsRivals counted a.world t.tx ev.call) : Meets counted a (.ran t (some ev)) := by
  rintro _ _ ⟨rfl, rfl⟩
  exact h

/-- **Two dispatchers that meet**: both count before either claims; the first claims the only row
that waits, and the scan of the second, whose snapshot is older, fails on it. -/
theorem second_refused (requests : DateTime → DequeueRequest → Prop) (counted : StatusRow → Bool)
    {req : DequeueRequest} (hreq : req = oneAtATime ∨ req = onePerMinute)
    (hallowed : requests ⟨0⟩ req) (hcounts : counted (claimRow 0 req (waiting "a" 1)) = true) :
    ∃ c, Pool.Run (dispatchers noText .json requests) (fun a e _ => Meets counted a e)
        ⟨atRest oneWaiting [], []⟩ c ∧ c.world.latest.count counted = 1 := by
  rcases hreq with rfl | rfl
  all_goals
    have hstart : Pool.Run (dispatchers noText .json requests) (fun a e _ => Meets counted a e)
        ⟨atRest oneWaiting [], []⟩ _ :=
      (Pool.Run.refl _).enter (t := ⟨_, none⟩) ⟨⟨⟨0⟩, _, hallowed, rfl⟩, rfl⟩
        (fun _ _ h => nomatch h)
    have hbegun := execAt hstart 0 rfl _ .begin (meets_of_ran trivial)
    have hraised := execAt hbegun 0 rfl _ .setTransaction (meets_of_ran trivial)
    have hcounted := execAt hraised 0 rfl _ .select (meets_of_ran trivial)
    have hlatest := execAt hcounted 0 rfl _ .select (meets_of_ran trivial)
    have hstart := hlatest.enter (t := ⟨_, none⟩) ⟨⟨⟨0⟩, _, hallowed, rfl⟩, rfl⟩
      (fun _ _ h => nomatch h)
    have hbegun := execAt hstart 0 rfl _ .begin (meets_of_ran trivial)
    have hraised := execAt hbegun 0 rfl _ .setTransaction (meets_of_ran trivial)
    have hcounted := execAt hraised 0 rfl _ .select (meets_of_ran trivial)
    have hlatest := execAt hcounted 0 rfl _ .select (meets_of_ran trivial)
    have hlocked := execAt hlatest 1 rfl (.ok ["a"])
      (.lock ⟨[⟨"a", waiting "a" 1⟩], .refl _, by simp, rfl⟩ rfl)
      (meets_of_ran (meetsRivals_of_single (e := ⟨"a", waiting "a" 1⟩) rfl (by
        rintro ⟨k, hlocked | ⟨row, -, -, hstamp⟩⟩
        · cases hlocked
        · exact absurd rfl hstamp)))
    have hclaimed := execAt hlocked 1 rfl _ (.update (free_of_single rfl rfl))
      (meets_of_ran trivial)
    have hdone := execAt hclaimed 1 rfl _ .commit (meets_of_ran trivial)
    have hrefused := execAt hdone 0 rfl (.error .changed)
      (.refuse ⟨[⟨"a", waiting "a" 1⟩], .refl _, by simp, rfl⟩ rfl)
      (meets_of_ran (meetsRivals_of_single (e := ⟨"a", waiting "a" 1⟩) rfl fun _ =>
        .inr ⟨_, rfl, hcounts, by decide⟩))
    exact ⟨_, hrefused, congrArg Nat.cast (countP_eq_length.mpr (forall_mem_singleton.mpr hcounts))⟩

theorem global_cap_of_meeting_two : ∃ c,
    Pool.Run (dispatchers noText .json (UnderCap "q" none 1))
      (fun a e _ => Meets (pendingIn "q" none) a e) ⟨atRest oneWaiting [], []⟩ c ∧
    c.world.latest.count (pendingIn "q" none) = 1 ∧
    c.world.latest.count (pendingIn "q" none) ≤ max 1 0 := by
  obtain ⟨c, hrun, hone⟩ := second_refused (UnderCap "q" none 1) (pendingIn "q" none)
    (.inl rfl) ⟨rfl, rfl, rfl⟩ rfl
  exact ⟨c, hrun, hone, global_cap_of_meeting (by decide) hrun⟩

/-- **Two `PENDING` rows under a cap of one**: a dispatcher has locked the only row that waits,
another row with a higher priority arrives, and a second dispatcher counts, and locks that one. -/
theorem two_pending_under_cap_one : ∃ c,
    Pool.Run (dispatchers noText .json (UnderCap "q" none 1)) (fun _ _ _ => True)
      ⟨atRest oneWaiting [], []⟩ c ∧
    c.world.latest.count (pendingIn "q" none) = 2 := by
  have hstart : Pool.Run (dispatchers noText .json (UnderCap "q" none 1)) (fun _ _ _ => True)
      ⟨atRest oneWaiting [], []⟩ _ :=
    (Pool.Run.refl _).enter (t := ⟨_, none⟩) ⟨⟨⟨0⟩, oneAtATime, ⟨rfl, rfl, rfl⟩, rfl⟩, rfl⟩ trivial
  have hbegun := execAt hstart 0 rfl _ .begin trivial
  have hraised := execAt hbegun 0 rfl _ .setTransaction trivial
  have hcounted := execAt hraised 0 rfl _ .select trivial
  have hlatest := execAt hcounted 0 rfl _ .select trivial
  have hlocked := execAt hlatest 0 rfl (.ok ["a"])
    (.lock ⟨[⟨"a", waiting "a" 1⟩], .refl _, by simp, rfl⟩ rfl) trivial
  have harrived := hlocked.tail (.env ⟨"b", waiting "b" 0, rfl, rfl, rfl⟩) trivial
  have hstart := harrived.enter (t := ⟨_, none⟩)
    ⟨⟨⟨0⟩, oneAtATime, ⟨rfl, rfl, rfl⟩, rfl⟩, rfl⟩ trivial
  have hbegun := execAt hstart 0 rfl _ .begin trivial
  have hraised := execAt hbegun 0 rfl _ .setTransaction trivial
  have hcounted := execAt hraised 0 rfl _ .select trivial
  have hlatest := execAt hcounted 0 rfl _ .select trivial
  have hlocked := execAt hlatest 0 rfl (.ok ["b"])
    (.lock ⟨[⟨"b", waiting "b" 0⟩, ⟨"a", waiting "a" 1⟩], .refl _, by simp [claimLe, waiting], rfl⟩
      rfl) trivial
  have hsecond := execAt hlocked 0 rfl _ (.update (free_of_single rfl rfl)) trivial
  have hsecond := execAt hsecond 0 rfl _ .commit trivial
  have hfirst := execAt hsecond 1 rfl _ (.update (free_of_single rfl rfl)) trivial
  have hfirst := execAt hfirst 1 rfl _ .commit trivial
  exact ⟨_, hfirst, rfl⟩

theorem rate_limit_of_meeting_two : ∃ c,
    Pool.Run (dispatchers noText .json (UnderRate "q" none 1 60000 (-60000)))
      (fun a e _ => Meets (startedSince "q" none (-60000)) a e) ⟨atRest oneWaiting [], []⟩ c ∧
    c.world.latest.count (startedSince "q" none (-60000)) = 1 ∧
    c.world.latest.count (startedSince "q" none (-60000)) ≤ max 1 0 := by
  obtain ⟨c, hrun, hone⟩ := second_refused (UnderRate "q" none 1 60000 (-60000))
    (startedSince "q" none (-60000)) (.inr rfl) ⟨rfl, rfl, rfl, rfl, rfl, by decide⟩ rfl
  exact ⟨c, hrun, hone, rate_limit_of_meeting (by decide) hrun⟩

/-- **Two starts in a minute where one is allowed**: both dispatchers count before either commits,
and the second scan skips the row of the first. -/
theorem two_starts_under_limit_one : ∃ c,
    Pool.Run (dispatchers noText .json (UnderRate "q" none 1 60000 (-60000))) (fun _ _ _ => True)
      ⟨atRest (AList.insert "b" (waiting "b" 0) oneWaiting) [], []⟩ c ∧
    c.world.latest.count (startedSince "q" none (-60000)) = 2 := by
  have hstart : Pool.Run (dispatchers noText .json (UnderRate "q" none 1 60000 (-60000)))
      (fun _ _ _ => True) ⟨atRest (AList.insert "b" (waiting "b" 0) oneWaiting) [], []⟩ _ :=
    (Pool.Run.refl _).enter (t := ⟨_, none⟩)
      ⟨⟨⟨0⟩, onePerMinute, ⟨rfl, rfl, rfl, rfl, rfl, by decide⟩, rfl⟩, rfl⟩ trivial
  have hbegun := execAt hstart 0 rfl _ .begin trivial
  have hraised := execAt hbegun 0 rfl _ .setTransaction trivial
  have hcounted := execAt hraised 0 rfl _ .select trivial
  have hlatest := execAt hcounted 0 rfl _ .select trivial
  have hlocked := execAt hlatest 0 rfl (.ok ["b"])
    (.lock ⟨[⟨"b", waiting "b" 0⟩, ⟨"a", waiting "a" 1⟩], .refl _, by simp [claimLe, waiting], rfl⟩
      rfl) trivial
  have hstart := hlocked.enter (t := ⟨_, none⟩)
    ⟨⟨⟨0⟩, onePerMinute, ⟨rfl, rfl, rfl, rfl, rfl, by decide⟩, rfl⟩, rfl⟩ trivial
  have hbegun := execAt hstart 0 rfl _ .begin trivial
  have hraised := execAt hbegun 0 rfl _ .setTransaction trivial
  have hcounted := execAt hraised 0 rfl _ .select trivial
  have hlatest := execAt hcounted 0 rfl _ .select trivial
  have hskipped := execAt hlatest 0 rfl (.ok ["a"])
    (.lock ⟨[⟨"a", waiting "a" 1⟩], .refl _, by simp, rfl⟩ rfl) trivial
  have hsecond := execAt hskipped 0 rfl _ (.update (free_of_single rfl rfl)) trivial
  have hsecond := execAt hsecond 0 rfl _ .commit trivial
  have hfirst := execAt hsecond 1 rfl _ (.update (free_of_single rfl rfl)) trivial
  have hfirst := execAt hfirst 1 rfl _ .commit trivial
  exact ⟨_, hfirst, rfl⟩

end Durare.Postgres
