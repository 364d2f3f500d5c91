import Durare.Machinery.Locks
import Durare.Operations.Dispatchers

/-!
# Operations/Contenders — who gets a row of a queue on PostgreSQL

Any number of `dequeue_workflows` transactions, under either isolation level and either way to treat
locked rows, while everyone else commits what they like to rows that are not locked.  A transaction
takes `ENQUEUED` rows once and changes them once, so what it returns was `ENQUEUED` until its commit
and is `PENDING` after it.

* `claims_exclusive` — no row is returned again before it has been set back.
-/

namespace Durare.Postgres

open List

open Snapshots

/-- The claim of a transaction: its time and its request. -/
abbrev Claim := DateTime × DequeueRequest

/-- A transaction at a point of its claim. -/
abbrev Claimant :=
  Owner Claim String StatusRow (List VersionInfo) (Except Error (List WorkflowStatus))

/-- A row stands under its id. -/
def Keyed (k : String) (row : StatusRow) : Prop := row.workflowUuid = k

/-- **Any number of claims**, while others commit. -/
def claimants (X : TextCodec) (s : Serializer) :
    Threads Claimant Db
      (Option (Proc.Event Stmt Sql.Answer (Owner.View String StatusRow (List VersionInfo)))) :=
  owners Keyed fun claim code => code = dequeueWorkflows X s claim.1 claim.2

/-- The row waits. -/
def isEnqueued (row : StatusRow) : Bool := row.status = .enqueued

/-- What a claim does to its rows. -/
def Claim.change (claim : Claim) : StatusRow → StatusRow := claimRow claim.1.timestampMillis claim.2

/-- What is returned has been committed. -/
def Returned (X : TextCodec) (s : Serializer) (claim : Claim)
    (r : Except Error (List WorkflowStatus)) (committed : Table String StatusRow) : Prop :=
  ∀ rows, r = .ok rows → ∀ row ∈ rows, ∃ k w, committed.lookup k = some w ∧
    row = rowToStatus X s claim.1 w

/-! ## A claim takes rows once -/

variable {maxTasks : Int} {req : DequeueRequest}

section

variable {claim : Claim} {α β : Type}

/-- What a program knows of itself: its transaction, and the rows it has committed. -/
abbrev Own := Option (Transaction String StatusRow) × Table String StatusRow

/-- A query that takes rows once, with what holds if it succeeds. -/
def Yields (claim : Claim) (x : Query α) (Q : α → Own → Prop) (own : Own) : Prop :=
  ∀ db : Db, Proc.wp (taking isEnqueued claim.change) x.run (fun r w => ∀ a, r = .ok a → Q a w.2)
    (db, own)

variable {Q : α → Own → Prop} {own : Own}

theorem Yields.mono {x : Query α} {Q' : α → Own → Prop} (h : Yields claim x Q own)
    (hQ : ∀ a own, Q a own → Q' a own) : Yields claim x Q' own :=
  fun db => Proc.wp_mono (fun _ w hr a ha => hQ a w.2 (hr a ha)) (h db)

theorem yields_pure {a : α} (h : Q a own) : Yields claim (pure a : Query α) Q own := by
  rintro db _ ⟨rfl⟩
  exact h

theorem yields_bind {x : Query α} {f : α → Query β} {Q : β → Own → Prop}
    (h : Yields claim x (fun a => Yields claim (f a) Q) own) : Yields claim (x >>= f) Q own := by
  intro db
  refine Proc.wp_bind (Proc.wp_mono ?_ (h db))
  rintro (e | a) ⟨db', own'⟩ hr
  · rintro b ⟨⟩
  · exact hr a rfl db'

theorem yields_run {stmt : Stmt} {Q : stmt.Result → Own → Prop}
    (hstmt : TakesOnce isEnqueued claim.change own.1 stmt)
    (h : ∀ db r db' tx', stmt.Exec db own.1 (.ok r) db' tx' →
      Q r (tx', note stmt (.ok r) own.1 own.2)) : Yields claim (run stmt) Q own := by
  obtain ⟨tx, committed⟩ := own
  rintro db ⟨db₁, _⟩ rfl r ⟨db₂, tx₂, committed₂⟩ ⟨hr, hnote⟩
  refine ⟨hstmt, ?_⟩
  rintro a ha
  cases r with
  | error e => cases ha
  | ok r =>
    obtain rfl : r = a := Except.ok.inj ha
    obtain rfl : committed₂ = note stmt (.ok r) tx committed := hnote
    exact h db₁ r db₂ tx₂ hr

/-- The transaction has taken nothing yet. -/
def Idle (own : Own) : Prop := ∃ t, own.1 = some t ∧ t.locks = [] ∧ t.writes = ∅

theorem yields_select {query : Table String StatusRow → List VersionInfo → α} (h : Idle own)
    (hQ : ∀ a own, Idle own → Q a own) : Yields claim (run (.select α query)) Q own := by
  obtain ⟨tx, committed⟩ := own
  obtain ⟨t, rfl, hlocks, hwrites⟩ := h
  refine yields_run trivial fun db r db' tx' hx => hQ _ _ ?_
  cases hx with
  | select => exact ⟨_, rfl, pin_locks.trans hlocks, pin_writes.trans hwrites⟩

theorem yields_isolate (h : Idle own) : Yields claim (isolate req) (fun _ own => Idle own) own := by
  unfold isolate
  split
  · obtain ⟨tx, committed⟩ := own
    obtain ⟨t, rfl, hlocks, hwrites⟩ := h
    refine yields_bind (yields_run trivial fun db r db' tx' hx => yields_pure ?_)
    cases hx with
    | setTransaction => exact ⟨_, rfl, hlocks, hwrites⟩
  · exact yields_pure h

theorem yields_rateBudget {nowMs : Int} (h : Idle own) :
    Yields claim (rateBudget nowMs req maxTasks) (fun _ own => Idle own) own := by
  unfold rateBudget
  split
  · exact yields_bind (yields_select h fun _ _ h' => yields_pure h')
  · exact yields_pure h

theorem yields_globalBudget (h : Idle own) :
    Yields claim (globalBudget req maxTasks) (fun _ own => Idle own) own := by
  unfold globalBudget
  split
  · exact yields_bind (yields_select h fun _ _ h' => yields_pure h')
  · exact yields_pure h

theorem claimable_isEnqueued {latest : Bool} {row : StatusRow}
    (h : claimable req latest row = true) : isEnqueued row = true := by
  unfold claimable at h
  rw [Bool.and_eq_true, Bool.and_eq_true] at h
  exact h.1.2

/-- **The claim**: it takes rows, changes them, commits, and returns what it has changed. -/
theorem yields_claim {X : TextCodec} {s : Serializer} (h : Idle own) :
    Yields claim (Postgres.claim X s claim.1 claim.2 maxTasks)
      (fun rows own => Returned X s claim (.ok rows) own.2) own := by
  have hnone (own : Own) : Returned X s claim (.ok []) own.2 := by
    rintro _ ⟨rfl⟩ _ hrow
    cases hrow
  unfold Postgres.claim
  split
  · exact yields_pure (hnone _)
  · refine yields_bind (yields_select h fun latest own h' => ?_)
    obtain ⟨tx, committed⟩ := own
    obtain ⟨t, rfl, hlocks, hwrites⟩ := h'
    refine yields_bind (yields_run ?_ fun db ids db' tx' hlock => ?_)
    · rintro _ ⟨rfl⟩
      exact ⟨hlocks, hwrites, fun row => claimable_isEnqueued⟩
    · split
      · exact yields_pure (hnone _)
      · cases hlock with
        | lock hkeys hfree =>
          refine yields_bind (yields_run ?_ fun db₁ rows db₁' tx₁ hupdate => ?_)
          · rintro _ ⟨rfl⟩
            refine ⟨pin_writes.trans hwrites, fun k hk => ?_, rfl⟩
            refine mem_append_left _ (mem_filter.mpr ⟨hk, ?_⟩)
            simp [hlocks]
          · cases hupdate with
            | update hfree =>
              refine yields_bind (yields_run trivial fun db₂ _ db₂' tx₂ hcommit => yields_pure ?_)
              cases hcommit with
              | commit =>
                rintro _ ⟨rfl⟩ row hrow
                obtain ⟨w, hw, rfl⟩ := mem_map.mp hrow
                obtain ⟨e, he, rfl⟩ := mem_map.mp hw
                refine ⟨e.1, _, lookup_foldl_insert_mem ?_ he, rfl⟩
                exact (AList.nodupKeys _).sublist filter_sublist

theorem takes_dequeueWorkflows (X : TextCodec) (s : Serializer) (claim : Claim) (db : Db) :
    Proc.wp (taking isEnqueued claim.change) (dequeueWorkflows X s claim.1 claim.2)
      (fun r w => Returned X s claim r w.2.2) (db, none, ∅) := by
  have hbegin : Yields claim (run .begin) (fun _ own => Idle own) (none, ∅) :=
    yields_run trivial fun _ _ _ _ hx => by
      cases hx with
      | begin => exact ⟨{}, rfl, rfl, rfl⟩
  have hbody {own : Own} (h : Idle own) : Yields claim (dequeueIn X s claim.1 claim.2)
      (fun rows own => Returned X s claim (.ok rows) own.2) own :=
    yields_bind ((yields_isolate h).mono fun _ _ h => yields_bind ((yields_rateBudget h).mono
      fun _ _ h => yields_bind ((yields_globalBudget h).mono fun _ _ h => yields_claim h)))
  refine Proc.wp_bind (Proc.wp_mono ?_ (hbegin db))
  rintro (e | a) ⟨db', own⟩ hidle
  · rintro _ ⟨⟩
  · refine Proc.wp_bind (Proc.wp_mono ?_ (hbody (hidle a rfl) db'))
    rintro r ⟨db₁, tx₁, committed₁⟩ hreturned ⟨db₂, _⟩ rfl r' ⟨db₃, tx₃, committed₃⟩ ⟨-, hnote⟩
    refine ⟨trivial, ?_⟩
    obtain rfl : committed₃ = committed₁ := hnote
    rintro rows rfl
    exact hreturned rows rfl rows rfl

end

/-! ## Exclusive claims -/

section

variable {X : TextCodec} {s : Serializer} {rows : Table String StatusRow}
  {versions : List VersionInfo} {a a' : Pool Claimant Db}

/-- What happens in a step of the claims. -/
abbrev ClaimEvent := Pool.Happens Claimant
  (Option (Proc.Event Stmt Sql.Answer (Owner.View String StatusRow (List VersionInfo))))

/-- The step commits the transaction of `t`, and what is left of it is to drop the handle and return
`returned`. -/
def Commits (e : ClaimEvent) (t : Claimant) (returned : List WorkflowStatus) : Prop :=
  ∃ k w w', t.code = .call .commit k ∧ e = .ran t (some ⟨.commit, w, .ok (), w'⟩) ∧
    k (.ok ()) = (Proc.ask .rollback).bind fun _ => .ret (.ok returned)

/-- The row with the id waits. -/
def EnqueuedAt (db : Db) (id : String) : Prop :=
  ∃ row, db.latest.rows.lookup id = some row ∧ row.status = .enqueued

variable {ok : Pool Claimant Db → ClaimEvent → Pool Claimant Db → Prop}

theorem parted_of_run (hrows : ∀ k row, rows.lookup k = some row → row.workflowUuid = k)
    (h : Pool.Run (claimants X s) ok ⟨atRest rows versions, []⟩ a) :
    Parted isEnqueued Claim.change Keyed (Returned X s) a := by
  refine @Pool.Run.pool _ _ _ (claimants X s) ok (Parted isEnqueued Claim.change Keyed
    (Returned X s)) (fun _ _ _ hs _ hinv => Parted.step ?_ ?_ hs hinv) _ _ h ?_
  · exact fun _ _ _ hk => hk
  · rintro claim _ db rfl
    exact takes_dequeueWorkflows X s claim db
  · exact ⟨⟨fun _ => Nat.le_refl _, fun _ _ => rfl⟩, hrows, fun _ ht => absurd ht not_mem_nil,
      .nil, fun _ ht => absurd ht not_mem_nil⟩

/-- A row that a commit returns was waiting until then, and is taken after it. -/
theorem committed_row (h : Parted isEnqueued Claim.change Keyed (Returned X s) a) {e : ClaimEvent}
    {t : Claimant} {returned : List WorkflowStatus} (hs : Pool.Step (claimants X s) a e a')
    (hc : Commits e t returned) {row : WorkflowStatus} (hrow : row ∈ returned) :
    EnqueuedAt a.world row.id ∧ ∃ w, a'.world.latest.rows.lookup row.id = some w ∧
      w.status = .pending ∧ w.executorId = some t.tag.2.executorId := by
  obtain ⟨k, w, w', hcode, rfl, hrest⟩ := hc
  obtain ⟨writes, ⟨⟨db, _⟩, rfl, hsafe⟩, hwrites⟩ := h.commit hcode hs
  rw [hrest] at hsafe
  -- The handle is dropped, and the program returns.
  have hdropped : execNoting (.rollback : Stmt) (db, none, writes) (.ok ())
    (db.release none, none, writes) := ⟨.rollback, rfl⟩
  have hreturned : Returned X s t.tag (.ok returned) writes := (hsafe _ rfl _ _ hdropped).2
  obtain ⟨key, committed, hlookup, rfl⟩ := hreturned returned rfl row hrow
  obtain ⟨hlatest, old, hold, hwaits, rfl⟩ := hwrites key committed hlookup
  obtain rfl : old.workflowUuid = key := h.fits key old hold
  exact ⟨⟨old, hold, of_decide_eq_true hwaits⟩, _, hlatest, rfl, rfl⟩

/-- **Claims are exclusive.**  What a transaction returns is `PENDING` under its executor when it
has committed, and no other transaction that commits returns it until it has been set back to
`ENQUEUED`. -/
theorem claims_exclusive (hrows : ∀ k row, rows.lookup k = some row → row.workflowUuid = k)
    (hrun : Pool.Run (claimants X s) (fun _ _ _ => True) ⟨atRest rows versions, []⟩ a)
    {e : ClaimEvent} {t : Claimant} {returned : List WorkflowStatus}
    (hs : Pool.Step (claimants X s) a e a') (hc : Commits e t returned) :
    ∀ row ∈ returned, (∃ w, a'.world.latest.rows.lookup row.id = some w ∧ w.status = .pending ∧
        w.executorId = some t.tag.2.executorId) ∧
      ∀ b b' e' t' returned', Pool.Run (claimants X s) (fun _ _ c => ¬EnqueuedAt c.world row.id) a'
        b → Pool.Step (claimants X s) b e' b' → Commits e' t' returned' →
          ∀ row' ∈ returned', row'.id ≠ row.id := by
  intro row hrow
  obtain ⟨-, w, hw, hpending, hexecutor⟩ := committed_row (parted_of_run hrows hrun) hs hc hrow
  refine ⟨⟨w, hw, hpending, hexecutor⟩, ?_⟩
  intro b b' e' t' returned' hbetween hs' hc' row' hrow' heq
  have hrun' : Pool.Run (claimants X s) (fun _ _ _ => True) ⟨atRest rows versions, []⟩ b :=
    (hrun.tail hs trivial).trans (hbetween.mono fun _ _ _ _ => trivial)
  obtain ⟨hwaits, -⟩ := committed_row (parted_of_run hrows hrun') hs' hc' hrow'
  rw [heq] at hwaits
  -- It does not wait in the state after the first commit, nor in any later one.
  cases hbetween with
  | refl =>
    obtain ⟨w', hw', henqueued⟩ := hwaits
    rw [hw, Option.some.injEq] at hw'
    subst hw'
    rw [hpending] at henqueued
    cases henqueued
  | tail _ hlast =>
    obtain ⟨_, -, hnot⟩ := hlast
    exact hnot hwaits

theorem execNotingAt {db db' : Db} {tx tx' : Option (Transaction String StatusRow)}
    {committed : Table String StatusRow} {claim : Claim} {ts : List Claimant}
    (h : Pool.Run (claimants X s) ok a ⟨db, ts⟩) (i : Nat) {stmt : Stmt}
    {k : stmt.Answer → Proc Stmt Sql.Answer (Except Error (List WorkflowStatus))}
    (ht : ts[i]? = some ⟨claim, .call stmt k, tx, committed⟩) (r : stmt.Answer)
    (hx : stmt.Exec db tx r db' tx') (hok : ∀ a e b, ok a e b) :
    Pool.Run (claimants X s) ok a
      ⟨db', ts.set i ⟨claim, k r, tx', note stmt r tx committed⟩ ++ []⟩ := by
  have hstep : Proc.Step execNoting (.call stmt k) (db, tx, committed)
      (some ⟨stmt, (db, tx, committed), r, (db', tx', note stmt r tx committed)⟩) (k r)
      (db', tx', note stmt r tx committed) := .call ⟨hx, rfl⟩
  exact h.stepAt i ht ⟨hstep, rfl, rfl⟩ (hok _ _ _)

/-- The last transaction commits, and goes on to return. -/
theorem commit_last (others : List Claimant) {db : Db} {tx : Transaction String StatusRow}
    {committed : Table String StatusRow} {claim : Claim} {returned : List WorkflowStatus}
    {k : Sql.Answer (.commit : Stmt) → Proc Stmt Sql.Answer (Except Error (List WorkflowStatus))}
    (h : Pool.Run (claimants X s) (fun _ _ _ => True) a
      ⟨db, others ++ [⟨claim, .call .commit k, some tx, committed⟩]⟩)
    (hk : k (.ok ()) = (Proc.ask .rollback).bind fun _ => .ret (.ok returned)) :
    ∃ b b' e t, Pool.Run (claimants X s) (fun _ _ _ => True) a b ∧
      Pool.Step (claimants X s) b e b' ∧ Commits e t returned ∧ t.tag = claim := by
  have hstep : Proc.Step execNoting (.call .commit k) (db, some tx, committed) _ (k (.ok ()))
      ((db.apply tx.writes).release (some tx), none, tx.writes) := .call ⟨.commit, rfl⟩
  exact ⟨_, _, _, _, h, @Pool.Step.run _ _ _ _ others [] _ _ ⟨claim, k (.ok ()), none, tx.writes⟩ _
    _ _ ⟨hstep, rfl, rfl⟩, ⟨k, _, _, rfl, rfl, hk⟩, rfl⟩

end

/-- A claim of up to ten rows, without limits. -/
def anyRow : DequeueRequest := ⟨"q", "local", "", none, 10, none, none, none⟩

/-- Two dispatchers scan the queue; the scan of the second skips the row that the first has locked,
and the first commits its claim. -/
theorem claims_exclusive_two : ∃ a a' e t row returned,
    Pool.Run (claimants noText .json) (fun _ _ _ => True)
      ⟨atRest oneWaiting [], []⟩ a ∧
    Pool.Step (claimants noText .json) a e a' ∧ Commits e t (row :: returned) ∧
    ∃ w, a'.world.latest.rows.lookup row.id = some w ∧ w.status = .pending ∧
      w.executorId = some "local" := by
  have hfirst : Pool.Run (claimants noText .json) (fun _ _ _ => True)
      ⟨atRest oneWaiting [], []⟩ _ :=
    (Pool.Run.refl _).enter
      (t := ⟨(⟨0⟩, anyRow), dequeueWorkflows noText .json ⟨0⟩ anyRow, none, ∅⟩)
        ⟨rfl, rfl, rfl⟩ trivial
  have hboth := hfirst.enter (t := ⟨(⟨0⟩, { anyRow with executorId := "other" }),
    dequeueWorkflows noText .json ⟨0⟩ { anyRow with executorId := "other" }, none, ∅⟩)
    ⟨rfl, rfl, rfl⟩ trivial
  have hbegun := execNotingAt hboth 1 rfl _ .begin fun _ _ _ => trivial
  have hlatest := execNotingAt hbegun 1 rfl _ .select fun _ _ _ => trivial
  have hlocked := execNotingAt hlatest 1 rfl (.ok ["a"])
    (.lock ⟨[⟨"a", waiting "a" 1⟩], .refl _, by simp, rfl⟩ rfl) fun _ _ _ => trivial
  have hbegun' := execNotingAt hlocked 0 rfl _ .begin fun _ _ _ => trivial
  have hlatest' := execNotingAt hbegun' 0 rfl _ .select fun _ _ _ => trivial
  have hskipped := execNotingAt hlatest' 0 rfl (.ok [])
    (.lock ⟨[], .refl _, by simp, rfl⟩ rfl) fun _ _ _ => trivial
  have hclaimed := execNotingAt hskipped 1 rfl _ (.update (free_of_single rfl rfl))
    fun _ _ _ => trivial
  obtain ⟨a, a', e, t, hrun, hs, hc, htag⟩ := commit_last [_] hclaimed rfl
  have hrows : ∀ k row, oneWaiting.lookup k = some row → row.workflowUuid = k := by
    intro k row hrow
    by_cases hk : k = "a"
    · subst hk
      rw [oneWaiting, AList.lookup_insert] at hrow
      cases hrow
      rfl
    · rw [oneWaiting, AList.lookup_insert_ne hk] at hrow
      cases hrow
  have hexclusive := claims_exclusive hrows hrun hs hc _ mem_cons_self
  rw [htag] at hexclusive
  exact ⟨a, a', e, t, _, _, hrun, hs, hc, hexclusive.1⟩

end Durare.Postgres
